import Orcastork.Orchestrator.Mirror

/-!
# Resolving a batch is merging it

The mirror resolves a batch against its copy of the entries and ships the result; the store
merges the batch DataPoint by DataPoint. Both end in the same entries: merging the batch
gives the entries overlaid with the batch's resolution (`foldl_mergeOne_overlay`), so the
store's `write` is its `applyResolved` at the resolution (`write_eq_applyResolved`).

Each of the four ways a DataPoint can meet the resolution is one setting of a key on both
sides.
-/

namespace Orcastork

open SessionState

/-! ### A resolution laid over entries -/

namespace Resolution

/-- Whether a resolution has anything to apply. -/
def changed (resolution : Resolution) : Bool :=
  !(resolution.added.values.isEmpty && resolution.updated.values.isEmpty)

/-- The entries the store has after it applied a resolution at revision `n`. -/
def overlay (n : Revision) (entries : Entries) (resolution : Resolution) : Entries :=
  resolution.updated.values.foldl (SessionState.applyUpdated n)
    (resolution.added.values.foldl (SessionState.applyAdded n) entries)

/-- A resolution over entries with the given keys: it lists every DataPoint at its
identity, as added if the identity is new and as updated if it is known. -/
structure Resolves (known : List IdentityKey) (resolution : Resolution) : Prop where
  added_keyed : ∀ {key dp}, resolution.added.get? key = some dp → identityKey dp = key
  updated_keyed : ∀ {key dp}, resolution.updated.get? key = some dp → identityKey dp = key
  added_new : ∀ {key}, key ∈ resolution.added.keys → key ∉ known
  updated_known : ∀ {key}, key ∈ resolution.updated.keys → key ∈ known

/-- The entry an added DataPoint gets. -/
def addedEntry (n : Revision) (dp : BaseDataPoint) (_ : Option Entry) : Entry := ⟨dp, n, n⟩

/-- The entry an updated DataPoint gets over what was there. -/
def updatedEntry (n : Revision) (dp : BaseDataPoint) : Option Entry → Entry
  | none => ⟨dp, 0, n⟩
  | some existing => ⟨dp, existing.addedRev, n⟩

theorem foldl_applyAdded {n : Revision} {entries : Entries} {d : Dict IdentityKey BaseDataPoint}
    (h : ∀ {key dp}, d.get? key = some dp → identityKey dp = key) :
  d.values.foldl (SessionState.applyAdded n) entries
    = entries.mergeWith (addedEntry n) d.items
  := by
  rw [Dict.values, List.foldl_map, Dict.mergeWith]
  apply List.foldl_ext
  intro e p hp
  rw [SessionState.applyAdded, h (Dict.get?_eq_some_iff.mpr hp)]
  rfl

theorem foldl_applyUpdated {n : Revision} {entries : Entries}
    {d : Dict IdentityKey BaseDataPoint}
    (h : ∀ {key dp}, d.get? key = some dp → identityKey dp = key) :
  d.values.foldl (SessionState.applyUpdated n) entries
    = entries.mergeWith (updatedEntry n) d.items
  := by
  rw [Dict.values, List.foldl_map, Dict.mergeWith]
  apply List.foldl_ext
  intro e p hp
  rw [SessionState.applyUpdated, h (Dict.get?_eq_some_iff.mpr hp)]
  cases e.get? p.1 with
  | none => rfl
  | some existing => rfl

namespace Resolves

variable {n : Revision} {entries : Entries} {resolution : Resolution}

theorem overlay_eq (h : resolution.Resolves entries.keys) :
  resolution.overlay n entries
    = (entries.mergeWith (addedEntry n) resolution.added.items).mergeWith (updatedEntry n)
        resolution.updated.items
  := by
  rw [overlay, foldl_applyAdded h.added_keyed, foldl_applyUpdated h.updated_keyed]

/-- An overlay keeps the known identities in place and appends the added ones. -/
theorem keys_overlay (h : resolution.Resolves entries.keys) :
  (resolution.overlay n entries).keys = entries.keys ++ resolution.added.keys
  := by
  have hadded : (entries.mergeWith (addedEntry n) resolution.added.items).keys
      = entries.keys ++ resolution.added.keys :=
    Dict.keys_mergeWith_of_disjoint resolution.added.nodup (fun _ => h.added_new)
  rw [h.overlay_eq, Dict.keys_mergeWith_of_subset resolution.updated.nodup, hadded]
  intro key hkey
  rw [hadded]
  apply List.mem_append_left
  exact h.updated_known hkey

/-- The entry of an identity in an overlay. -/
theorem get?_overlay (h : resolution.Resolves entries.keys) (key : IdentityKey) :
  (resolution.overlay n entries).get? key
    = ((resolution.added.get? key).map (fun dp => addedEntry n dp none)).or
        (((resolution.updated.get? key).map
          (fun dp => updatedEntry n dp (entries.get? key))).or (entries.get? key))
  := by
  rw [h.overlay_eq, Dict.get?_mergeWith_items, Dict.get?_mergeWith_items]
  cases hadded : resolution.added.get? key with
  | none => rfl
  | some dp =>
      have hupdated : resolution.updated.get? key = none := by
        rw [Dict.get?_eq_none_iff]
        intro hkey
        exact h.added_new (Dict.mem_keys_of_get? hadded) (h.updated_known hkey)
      rw [hupdated]
      rfl

end Resolves

/-! ### Listing one more DataPoint -/

/-- The resolution with a DataPoint listed as added. -/
def withAdded (resolution : Resolution) (outcomes : List MergeResult) (dp : BaseDataPoint) :
    Resolution :=
  ⟨outcomes, resolution.added.set (identityKey dp) dp, resolution.updated⟩

/-- The resolution with a DataPoint listed as updated. -/
def withUpdated (resolution : Resolution) (outcomes : List MergeResult) (dp : BaseDataPoint) :
    Resolution :=
  ⟨outcomes, resolution.added, resolution.updated.set (identityKey dp) dp⟩

theorem changed_of_added {resolution : Resolution} {key : IdentityKey} {dp : BaseDataPoint}
    (h : resolution.added.get? key = some dp) :
  resolution.changed = true
  := by
  simp [changed, Dict.isEmpty_values_of_get? h]

theorem changed_of_updated {resolution : Resolution} {key : IdentityKey} {dp : BaseDataPoint}
    (h : resolution.updated.get? key = some dp) :
  resolution.changed = true
  := by
  simp [changed, Dict.isEmpty_values_of_get? h]

theorem values_of_not_changed {resolution : Resolution} (h : resolution.changed = false) :
  resolution.added.values = [] ∧ resolution.updated.values = []
  := by
  simpa [changed] using h

theorem changed_withAdded (resolution : Resolution) (outcomes : List MergeResult)
    (dp : BaseDataPoint) :
  (resolution.withAdded outcomes dp).changed = true
  := changed_of_added (Dict.get?_set_self resolution.added (identityKey dp) dp)

theorem changed_withUpdated (resolution : Resolution) (outcomes : List MergeResult)
    (dp : BaseDataPoint) :
  (resolution.withUpdated outcomes dp).changed = true
  := changed_of_updated (Dict.get?_set_self resolution.updated (identityKey dp) dp)

namespace Resolves

variable {n : Revision} {entries : Entries} {resolution : Resolution}

theorem withAdded {known : List IdentityKey} (h : resolution.Resolves known)
    (outcomes : List MergeResult) {dp : BaseDataPoint} (hnew : identityKey dp ∉ known) :
  (resolution.withAdded outcomes dp).Resolves known
  := by
  constructor
  · intro key dp' hget
    simp only [Resolution.withAdded, Dict.get?_set] at hget
    split at hget
    · cases hget
      assumption
    · exact h.added_keyed hget
  · exact h.updated_keyed
  · intro key hkey
    rcases Dict.mem_keys_set.mp hkey with rfl | hkey
    · exact hnew
    · exact h.added_new hkey
  · exact h.updated_known

theorem withUpdated {known : List IdentityKey} (h : resolution.Resolves known)
    (outcomes : List MergeResult) {dp : BaseDataPoint} (hknown : identityKey dp ∈ known) :
  (resolution.withUpdated outcomes dp).Resolves known
  := by
  constructor
  · exact h.added_keyed
  · intro key dp' hget
    simp only [Resolution.withUpdated, Dict.get?_set] at hget
    split at hget
    · cases hget
      assumption
    · exact h.updated_keyed hget
  · exact h.added_new
  · intro key hkey
    rcases Dict.mem_keys_set.mp hkey with rfl | hkey
    · exact hknown
    · exact h.updated_known hkey

/-- Listing a DataPoint of a new identity as added sets its entry in the overlay. -/
theorem overlay_withAdded (h : resolution.Resolves entries.keys)
    (outcomes : List MergeResult) {dp : BaseDataPoint} (hnew : identityKey dp ∉ entries.keys) :
  (resolution.withAdded outcomes dp).overlay n entries
    = (resolution.overlay n entries).set (identityKey dp) ⟨dp, n, n⟩
  := by
  have h' := h.withAdded outcomes hnew
  apply Dict.ext_keys
  · rw [h'.keys_overlay, Dict.keys_set, h.keys_overlay, Resolution.withAdded, Dict.keys_set]
    simp only [List.mem_append, hnew, false_or]
    split
    · rfl
    · rw [List.append_assoc]
  · intro key
    rw [h'.get?_overlay, Dict.get?_set, h.get?_overlay, Resolution.withAdded, Dict.get?_set]
    split
    · rfl
    · rfl

/-- Listing a DataPoint of a known identity as updated sets its entry in the overlay. -/
theorem overlay_withUpdated (h : resolution.Resolves entries.keys)
    (outcomes : List MergeResult) {dp : BaseDataPoint} {existing : Entry}
    (hknown : entries.get? (identityKey dp) = some existing) :
  (resolution.withUpdated outcomes dp).overlay n entries
    = (resolution.overlay n entries).set (identityKey dp) ⟨dp, existing.addedRev, n⟩
  := by
  have hmem := Dict.mem_keys_of_get? hknown
  have h' := h.withUpdated outcomes hmem
  apply Dict.ext_keys
  · rw [h'.keys_overlay, Dict.keys_set_of_mem, h.keys_overlay, Resolution.withUpdated]
    rw [h.keys_overlay]
    exact List.mem_append_left _ hmem
  · intro key
    rw [h'.get?_overlay, Dict.get?_set, h.get?_overlay, Resolution.withUpdated, Dict.get?_set]
    split
    · rename_i hkey
      subst hkey
      have hadded : resolution.added.get? (identityKey dp) = none := by
        rw [Dict.get?_eq_none_iff]
        intro hkey
        exact h.added_new hkey hmem
      rw [hadded, hknown]
      rfl
    · rfl

end Resolves

end Resolution

/-! ### The two merges agree -/

/-- A stamp as a mirror rehydrated at `rehydratedAt` holds it: an older one is `0`. -/
def forgetRev (rehydratedAt rev : Revision) : Revision :=
  if rehydratedAt < rev then rev else 0

/-- Comparing a held stamp with a revision from the rehydrated one on is comparing the
stamp. -/
theorem lt_forgetRev_of_le {rehydratedAt since : Revision} (h : rehydratedAt ≤ since)
    (rev : Revision) :
  since < forgetRev rehydratedAt rev ↔ since < rev
  := by
  unfold forgetRev
  split
  · rfl
  · rename_i hold
    constructor
    · intro hlt
      exact absurd hlt (Nat.not_lt_zero since)
    · intro hlt
      exact absurd (h.trans_lt hlt) hold

/-- A held stamp is past a revision before the rehydration when the stamp is past the
rehydration. -/
theorem lt_forgetRev_of_lt {rehydratedAt since : Revision} (h : since < rehydratedAt)
    (rev : Revision) :
  since < forgetRev rehydratedAt rev ↔ rehydratedAt < rev
  := by
  unfold forgetRev
  split
  · rename_i hnew
    simp only [h.trans hnew, hnew]
  · rename_i hold
    simp only [Nat.not_lt_zero, hold]

/-- An entry as a mirror rehydrated at `rehydratedAt` holds it. -/
def forget (rehydratedAt : Revision) (entry : Entry) : MirrorEntry where
  dataPoint := entry.dataPoint
  addedRev := forgetRev rehydratedAt entry.addedRev
  updatedRev := forgetRev rehydratedAt entry.updatedRev

/-- Merging a DataPoint whose identity changed in this batch sets its entry, with the
later of the two observations. -/
theorem mergeOne_again {n addedRev : Revision} {entries : Entries} {dp known : BaseDataPoint}
    (h : entries.get? (identityKey dp) = some ⟨known, addedRev, n⟩) :
  mergeOne n (entries, true) dp
    = (entries.set (identityKey dp) ⟨known.reobserved dp.lastRetrieved, addedRev, n⟩, true)
  := by
  rcases lt_or_ge known.lastRetrieved dp.lastRetrieved with hlt | hle
  · exact mergeOne_newer h hlt
  · rw [mergeOne_not_newer h hle, reobserved_of_le hle, Dict.set_eq_self h]

open Resolution

section

variable {n rehydratedAt : Revision} {entries : Entries} {resolution : Resolution}
variable {dp : BaseDataPoint}

/-- A DataPoint of an identity that the batch has added. -/
theorem mergeOne_overlay_added (h : resolution.Resolves entries.keys) {known : BaseDataPoint}
    (hadded : resolution.added.get? (identityKey dp) = some known) :
  let resolution' :=
    SessionStateMirror.resolveOne (entries.map (forget rehydratedAt)) resolution dp
  resolution'.Resolves entries.keys
    ∧ mergeOne n (resolution.overlay n entries, resolution.changed) dp
      = (resolution'.overlay n entries, resolution'.changed)
  := by
  intro resolution'
  have hkey := h.added_keyed hadded
  have hnew := h.added_new (Dict.mem_keys_of_get? hadded)
  have hget : (resolution.overlay n entries).get? (identityKey dp) = some ⟨known, n, n⟩ := by
    rw [h.get?_overlay, hadded]
    rfl
  have hres : resolution' = resolution.withAdded
      (resolution.outcomes ++ [⟨.updated, known.reobserved dp.lastRetrieved⟩])
      (known.reobserved dp.lastRetrieved) := by
    simp only [resolution', SessionStateMirror.resolveOne, hadded, withAdded,
      identityKey_reobserved, hkey]
  rw [← hkey, ← identityKey_reobserved known dp.lastRetrieved] at hnew
  rw [hres, h.overlay_withAdded _ hnew, changed_withAdded, changed_of_added hadded,
    mergeOne_again hget, identityKey_reobserved, hkey]
  exact ⟨h.withAdded _ hnew, rfl⟩

/-- A DataPoint of an identity that the batch has updated. -/
theorem mergeOne_overlay_updated (h : resolution.Resolves entries.keys) {known : BaseDataPoint}
    (hadded : resolution.added.get? (identityKey dp) = none)
    (hupdated : resolution.updated.get? (identityKey dp) = some known) :
  let resolution' :=
    SessionStateMirror.resolveOne (entries.map (forget rehydratedAt)) resolution dp
  resolution'.Resolves entries.keys
    ∧ mergeOne n (resolution.overlay n entries, resolution.changed) dp
      = (resolution'.overlay n entries, resolution'.changed)
  := by
  intro resolution'
  have hkey := h.updated_keyed hupdated
  have hmem := h.updated_known (Dict.mem_keys_of_get? hupdated)
  obtain ⟨existing, hexisting⟩ := Option.isSome_iff_exists.mp (Dict.get?_isSome_iff.mpr hmem)
  have hget : (resolution.overlay n entries).get? (identityKey dp)
      = some ⟨known, existing.addedRev, n⟩ := by
    rw [h.get?_overlay, hadded, hupdated, hexisting]
    rfl
  have hres : resolution' = resolution.withUpdated
      (resolution.outcomes ++ [⟨.updated, known.reobserved dp.lastRetrieved⟩])
      (known.reobserved dp.lastRetrieved) := by
    simp only [resolution', SessionStateMirror.resolveOne, hadded, hupdated, withUpdated,
      identityKey_reobserved, hkey]
  rw [← hkey, ← identityKey_reobserved known dp.lastRetrieved] at hmem hexisting
  rw [hres, h.overlay_withUpdated _ hexisting, changed_withUpdated, changed_of_updated hupdated,
    mergeOne_again hget, identityKey_reobserved, hkey]
  exact ⟨h.withUpdated _ hmem, rfl⟩

/-- A DataPoint of an identity new to the session. -/
theorem mergeOne_overlay_new (h : resolution.Resolves entries.keys)
    (hadded : resolution.added.get? (identityKey dp) = none)
    (hupdated : resolution.updated.get? (identityKey dp) = none)
    (hexisting : entries.get? (identityKey dp) = none) :
  let resolution' :=
    SessionStateMirror.resolveOne (entries.map (forget rehydratedAt)) resolution dp
  resolution'.Resolves entries.keys
    ∧ mergeOne n (resolution.overlay n entries, resolution.changed) dp
      = (resolution'.overlay n entries, resolution'.changed)
  := by
  intro resolution'
  have hget : (resolution.overlay n entries).get? (identityKey dp) = none := by
    rw [h.get?_overlay, hadded, hupdated, hexisting]
    rfl
  have hres : resolution'
      = resolution.withAdded (resolution.outcomes ++ [⟨.added, dp⟩]) dp := by
    simp only [resolution', SessionStateMirror.resolveOne, hadded, hupdated, Dict.get?_map,
      hexisting, Option.map_none, withAdded]
  have hnew := Dict.get?_eq_none_iff.mp hexisting
  rw [hres, h.overlay_withAdded _ hnew, changed_withAdded, mergeOne_new hget]
  exact ⟨h.withAdded _ hnew, rfl⟩

/-- A DataPoint of an identity the session has and the batch has not changed. -/
theorem mergeOne_overlay_known (h : resolution.Resolves entries.keys) {existing : Entry}
    (hadded : resolution.added.get? (identityKey dp) = none)
    (hupdated : resolution.updated.get? (identityKey dp) = none)
    (hexisting : entries.get? (identityKey dp) = some existing)
    (hkey : identityKey existing.dataPoint = identityKey dp) :
  let resolution' :=
    SessionStateMirror.resolveOne (entries.map (forget rehydratedAt)) resolution dp
  resolution'.Resolves entries.keys
    ∧ mergeOne n (resolution.overlay n entries, resolution.changed) dp
      = (resolution'.overlay n entries, resolution'.changed)
  := by
  intro resolution'
  have hget : (resolution.overlay n entries).get? (identityKey dp) = some existing := by
    rw [h.get?_overlay, hadded, hupdated, hexisting]
    rfl
  rcases lt_or_ge existing.dataPoint.lastRetrieved dp.lastRetrieved with hlt | hle
  · have hres : resolution' = resolution.withUpdated
        (resolution.outcomes ++ [⟨.updated, existing.dataPoint.reobserved dp.lastRetrieved⟩])
        (existing.dataPoint.reobserved dp.lastRetrieved) := by
      simp only [resolution', SessionStateMirror.resolveOne, hadded, hupdated, Dict.get?_map,
        hexisting, Option.map_some, forget, gt_iff_lt, hlt, if_true, withUpdated,
        identityKey_reobserved, hkey]
    have hmem := Dict.mem_keys_of_get? hexisting
    rw [← hkey, ← identityKey_reobserved existing.dataPoint dp.lastRetrieved] at hmem hexisting
    rw [hres, h.overlay_withUpdated _ hexisting, changed_withUpdated, mergeOne_newer hget hlt,
      identityKey_reobserved, hkey]
    exact ⟨h.withUpdated _ hmem, rfl⟩
  · have hres : resolution' =
        ⟨resolution.outcomes ++ [⟨.updated, existing.dataPoint.reobserved dp.lastRetrieved⟩],
          resolution.added, resolution.updated⟩ := by
      simp only [resolution', SessionStateMirror.resolveOne, hadded, hupdated, Dict.get?_map,
        hexisting, Option.map_some, forget, gt_iff_lt, not_lt.mpr hle, if_false]
    rw [hres, mergeOne_not_newer hget hle]
    exact ⟨⟨h.added_keyed, h.updated_keyed, h.added_new, h.updated_known⟩, rfl⟩

end

/-- Resolving one more DataPoint and then laying the resolution over the entries is laying
the resolution over the entries and then merging the DataPoint. -/
theorem mergeOne_overlay {n bound : Revision} (rehydratedAt : Revision) {entries : Entries}
    (hentries : entries.WellFormed bound) {resolution : Resolution}
    (h : resolution.Resolves entries.keys) (dp : BaseDataPoint) :
  let resolution' :=
    SessionStateMirror.resolveOne (entries.map (forget rehydratedAt)) resolution dp
  resolution'.Resolves entries.keys
    ∧ mergeOne n (resolution.overlay n entries, resolution.changed) dp
      = (resolution'.overlay n entries, resolution'.changed)
  := by
  cases hadded : resolution.added.get? (identityKey dp) with
  | some known => exact mergeOne_overlay_added h hadded
  | none =>
      cases hupdated : resolution.updated.get? (identityKey dp) with
      | some known => exact mergeOne_overlay_updated h hadded hupdated
      | none =>
          cases hexisting : entries.get? (identityKey dp) with
          | none => exact mergeOne_overlay_new h hadded hupdated hexisting
          | some existing =>
              exact mergeOne_overlay_known h hadded hupdated hexisting
                (hentries.keyed hexisting)

/-- Merging a batch DataPoint by DataPoint is laying its resolution over the entries. -/
theorem foldl_mergeOne_overlay {n bound : Revision} (rehydratedAt : Revision)
    {entries : Entries}
    (hentries : entries.WellFormed bound) (dataPoints : List BaseDataPoint)
    {resolution : Resolution} (h : resolution.Resolves entries.keys) :
  let resolution' := dataPoints.foldl
    (SessionStateMirror.resolveOne (entries.map (forget rehydratedAt))) resolution
  resolution'.Resolves entries.keys
    ∧ dataPoints.foldl (mergeOne n) (resolution.overlay n entries, resolution.changed)
      = (resolution'.overlay n entries, resolution'.changed)
  := by
  induction dataPoints generalizing resolution with
  | nil => exact ⟨h, rfl⟩
  | cons dp dataPoints ih =>
      obtain ⟨h', hstep⟩ := mergeOne_overlay (n := n) rehydratedAt hentries h dp
      simp only [List.foldl_cons, hstep]
      exact ih h'

theorem resolves_empty (known : List IdentityKey) :
  Resolves known ⟨[], .empty, .empty⟩
  := by
  constructor
  · intro key dp h
    simp at h
  · intro key dp h
    simp at h
  · intro key h
    simp at h
  · intro key h
    simp at h

/-- The resolution of a batch over a copy of the entries is one over the entries. -/
theorem resolve_resolves {bound : Revision} (rehydratedAt : Revision) {entries : Entries}
    (h : entries.WellFormed bound) (dataPoints : List BaseDataPoint) :
  (SessionStateMirror.resolve (entries.map (forget rehydratedAt)) dataPoints).Resolves
    entries.keys
  := (foldl_mergeOne_overlay (n := 0) rehydratedAt h dataPoints (resolves_empty entries.keys)).1

/-- The store's write does to a batch what applying the batch's resolution does. -/
theorem write_eq_applyResolved {state : SessionState} (h : state.WellFormed)
    (rehydratedAt : Revision) (dataPoints : List BaseDataPoint) (epoch : Epoch) :
  let resolution :=
    SessionStateMirror.resolve (state.entries.map (forget rehydratedAt)) dataPoints
  state.write dataPoints epoch
    = state.applyResolved resolution.added.values resolution.updated.values epoch
  := by
  intro resolution
  rcases Nat.lt_or_ge epoch state.maxEpoch with hlt | hle
  · rw [write_of_lt hlt, applyResolved_of_lt hlt]
  · have hmerge : dataPoints.foldl (mergeOne (state.revision + 1)) (state.entries, false)
        = (resolution.overlay (state.revision + 1) state.entries, resolution.changed) :=
      (foldl_mergeOne_overlay rehydratedAt h dataPoints (resolves_empty state.entries.keys)).2
    rw [write_of_le hle hmerge]
    cases hchanged : resolution.changed with
    | false =>
        have hsame := foldl_mergeOne_unchanged ((congrArg Prod.snd hmerge).trans hchanged)
        rw [hmerge, hchanged, Prod.mk.injEq] at hsame
        obtain ⟨hadded, hupdated⟩ := values_of_not_changed hchanged
        rw [hadded, hupdated, applyResolved_nil hle, hsame.1]
        rfl
    | true =>
        rw [changed, Bool.not_eq_true'] at hchanged
        rw [applyResolved_of_le hle hchanged]
        rfl

end Orcastork
