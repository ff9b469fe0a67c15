import Orcastork.Orchestrator.MirrorMerge

/-!
# The mirror simulates the store

A mirror agrees with the state of its session when it holds the session's entries with
their stamps forgotten up to the rehydration, and when its primed baselines, together with
the stamps it kept, split the entries as the store does. Rehydrating establishes the
agreement, and priming and writing keep it, so an agreeing mirror answers what the store
answers after any run of its sole mutator.
-/

namespace Orcastork

open SessionState Resolution

/-! ### The mirror applies what the store applies -/

theorem foldl_applyUpdated_map {n rehydratedAt : Revision} (hn : rehydratedAt < n)
    {l : List (IdentityKey × BaseDataPoint)} {entries : Entries}
    (h : ∀ key ∈ l.map Prod.fst, key ∈ entries.keys) :
  l.foldl (SessionStateMirror.applyUpdated n) (entries.map (forget rehydratedAt))
    = (entries.mergeWith (updatedEntry n) l).map (forget rehydratedAt)
  := by
  induction l generalizing entries with
  | nil => rfl
  | cons p l ih =>
      simp only [List.map_cons, List.mem_cons, forall_eq_or_imp] at h
      obtain ⟨existing, hexisting⟩ := Option.isSome_iff_exists.mp (Dict.get?_isSome_iff.mpr h.1)
      have hstep : SessionStateMirror.applyUpdated n (entries.map (forget rehydratedAt)) p
          = (entries.set p.1 (updatedEntry n p.2 (entries.get? p.1))).map
              (forget rehydratedAt) := by
        simp only [SessionStateMirror.applyUpdated, Dict.get?_map, hexisting, Option.map_some,
          Dict.map_set, updatedEntry, forget, forgetRev, hn, if_true]
      rw [List.foldl_cons, Dict.mergeWith_cons, hstep]
      apply ih
      intro key hkey
      exact Dict.mem_keys_set.mpr (Or.inr (h.2 key hkey))

/-- Applying a resolution to the mirror's copy of the entries gives the copy of the entries
the store has after applying it. -/
theorem apply_overlay {n : Revision} {mirror : SessionStateMirror} {entries : Entries}
    {resolution : Resolution} (hn : mirror.rehydratedAt < n)
    (hentries : mirror.entries = entries.map (forget mirror.rehydratedAt))
    (h : resolution.Resolves entries.keys) :
  (mirror.apply resolution n).entries
    = (resolution.overlay n entries).map (forget mirror.rehydratedAt)
  := by
  have hadded : resolution.added.items.foldl (SessionStateMirror.applyAdded n) mirror.entries
      = (entries.mergeWith (addedEntry n) resolution.added.items).map
          (forget mirror.rehydratedAt) := by
    rw [Dict.map_mergeWith (fun dp _ => ⟨dp, n, n⟩), ← hentries]
    · rfl
    · intro dp existing
      simp only [forget, forgetRev, addedEntry, hn, if_true]
  have hkeys : ∀ key ∈ resolution.updated.items.map Prod.fst,
      key ∈ (entries.mergeWith (addedEntry n) resolution.added.items).keys := by
    intro key hkey
    rw [Dict.keys_mergeWith resolution.added.nodup]
    exact List.mem_append_left _ (h.updated_known hkey)
  rw [h.overlay_eq, ← foldl_applyUpdated_map hn hkeys, ← hadded]
  rfl

/-! ### Primed baselines -/

/-- A baseline tells, together with the stamps after the rehydration, which entries were
added and which updated since `since`. -/
def Splits (rehydratedAt since : Revision) (entries : Entries)
    (baseline : Dict IdentityKey MergeKind) : Prop :=
  ∀ {key entry}, entries.get? key = some entry →
    (since < entry.addedRev
      ↔ baseline.get? key = some .added ∨ rehydratedAt < entry.addedRev)
    ∧ (entry.addedRev ≤ since →
      (since < entry.updatedRev
        ↔ baseline.get? key = some .updated ∨ rehydratedAt < entry.updatedRev))

/-- The marks of the entries that satisfy `p`: distinct identities, each marked. -/
theorem marks {bound : Revision} {entries : Entries} (h : entries.WellFormed bound)
    (p : Entry → Bool) (kind : MergeKind) :
  let l := ((entries.values.filter p).map Entry.dataPoint).map (fun dp => (identityKey dp, kind))
  (l.map Prod.fst).Nodup
    ∧ ∀ {key entry}, entries.get? key = some entry →
      Dict.lookup key l = if p entry then some kind else none
  := by
  intro l
  have hl : l = (entries.items.filter (fun item => p item.2)).map (fun item => (item.1, kind)) := by
    simp only [l, Dict.values, List.filter_map, List.map_map]
    apply List.map_congr_left
    intro item hitem
    have hget := Dict.get?_eq_some_iff.mpr (List.mem_of_mem_filter hitem)
    simp only [Function.comp_apply, h.keyed hget]
  have hnodup : (l.map Prod.fst).Nodup := by
    rw [hl, List.map_map]
    exact (List.filter_sublist.map Prod.fst).nodup entries.nodup
  constructor
  · exact hnodup
  · intro key entry hget
    have hmem := Dict.get?_eq_some_iff.mp hget
    split
    · rename_i hp
      apply Dict.lookup_of_mem hnodup
      rw [hl]
      exact List.mem_map.mpr ⟨(key, entry), List.mem_filter.mpr ⟨hmem, hp⟩, rfl⟩
    · rename_i hp
      rw [← Option.not_isSome_iff_eq_none, Dict.lookup_isSome_iff, hl, List.map_map]
      intro hkey
      obtain ⟨⟨key', entry'⟩, hitem, rfl⟩ := List.mem_map.mp hkey
      obtain ⟨hitem, hp'⟩ := List.mem_filter.mp hitem
      have hentry : entry' = entry :=
        Option.some.inj ((Dict.get?_eq_some_iff.mpr hitem).symm.trans hget)
      subst hentry
      exact hp hp'

/-- The baseline the mirror primes tells the entries apart as the store does. -/
theorem baselineOf_splits {state : SessionState} (h : state.WellFormed)
    {rehydratedAt since : Revision} (hsince : since < rehydratedAt) :
  Splits rehydratedAt since state.entries
    (SessionStateMirror.baselineOf (state.changeSetSince since))
  := by
  intro key entry hget
  obtain ⟨hadded, hlookupAdded⟩ :=
    marks h (fun e => decide (e.addedRev > since)) MergeKind.added
  obtain ⟨hupdated, hlookupUpdated⟩ :=
    marks h (fun e => decide (e.addedRev ≤ since ∧ since < e.updatedRev)) MergeKind.updated
  have hbaseline :
      (SessionStateMirror.baselineOf (state.changeSetSince since)).get? key
        = (if entry.addedRev ≤ since ∧ since < entry.updatedRev then some .updated
            else none).or (if since < entry.addedRev then some .added else none) := by
    simp only [SessionStateMirror.baselineOf, changeSetSince, Dict.get?_update hupdated,
      Dict.get?_update hadded, hlookupAdded hget, hlookupUpdated hget, decide_eq_true_eq,
      gt_iff_lt, Dict.get?_empty, Option.or_none]
  rw [hbaseline]
  constructor
  · by_cases hlt : since < entry.addedRev
    · simp [hlt, not_le.mpr hlt]
    · have hle : ¬rehydratedAt < entry.addedRev := fun h => hlt (hsince.trans h)
      by_cases hupd : since < entry.updatedRev
      · simp [hlt, hle, hupd]
      · simp [hlt, hle, hupd]
  · intro hle
    by_cases hupd : since < entry.updatedRev
    · simp [hle, hupd]
    · have hge : ¬rehydratedAt < entry.updatedRev := fun h => hupd (hsince.trans h)
      simp [hupd, hge, not_lt.mpr hle]

/-- What a write changes, seen from one identity: its entry is new, or has the old added
stamp and the new updated one, or is the old entry. -/
theorem splits_overlay {n rehydratedAt since : Revision} {entries : Entries}
    {resolution : Resolution} {baseline : Dict IdentityKey MergeKind}
    (hsince : since < rehydratedAt) (hn : rehydratedAt < n)
    (hres : resolution.Resolves entries.keys)
    (h : Splits rehydratedAt since entries baseline) :
  Splits rehydratedAt since (resolution.overlay n entries) baseline
  := by
  intro key entry hget
  rw [hres.get?_overlay] at hget
  cases hadded : resolution.added.get? key with
  | some dp =>
      rw [hadded] at hget
      cases hget
      simp only [addedEntry, hn, hsince.trans hn, or_true, implies_true, and_self]
  | none =>
      cases hupdated : resolution.updated.get? key with
      | some dp =>
          have hmem := hres.updated_known (Dict.mem_keys_of_get? hupdated)
          obtain ⟨existing, hexisting⟩ :=
            Option.isSome_iff_exists.mp (Dict.get?_isSome_iff.mpr hmem)
          rw [hadded, hupdated, hexisting] at hget
          cases hget
          obtain ⟨hsplit, -⟩ := h hexisting
          simp only [updatedEntry, hsplit, hn, hsince.trans hn, or_true, implies_true, and_self]
      | none =>
          rw [hadded, hupdated] at hget
          exact h hget

/-! ### Agreement of a mirror with its store -/

/-- A mirror agrees with the state of its session in the store. -/
structure Agrees (mirror : SessionStateMirror) (state : SessionState) : Prop where
  wellFormed : state.WellFormed
  hydrated : mirror.hydrated = true
  entries : mirror.entries = state.entries.map (forget mirror.rehydratedAt)
  revision : mirror.revision = state.revision
  rehydrated_le : mirror.rehydratedAt ≤ state.revision
  baselines : ∀ {since baseline}, mirror.baselines.get? since = some baseline →
    since < mirror.rehydratedAt ∧ Splits mirror.rehydratedAt since state.entries baseline

/-- Only the entries and the revision of a state matter. -/
theorem Agrees.congr {mirror : SessionStateMirror} {state state' : SessionState}
    (h : Agrees mirror state) (hentries : state'.entries = state.entries)
    (hrevision : state'.revision = state.revision) :
  Agrees mirror state'
  := by
  constructor
  · rw [SessionState.WellFormed, hentries, hrevision]
    apply h.wellFormed
  · apply h.hydrated
  · rw [hentries]
    apply h.entries
  · rw [hrevision]
    apply h.revision
  · rw [hrevision]
    apply h.rehydrated_le
  · rw [hentries]
    intro since baseline hbaseline
    apply h.baselines hbaseline

/-- A rehydrated mirror agrees with the state it was rehydrated from. -/
theorem agrees_rehydrate (mirror : SessionStateMirror) {state : SessionState}
    (h : state.WellFormed) :
  Agrees (mirror.rehydrate state) state
  := by
  constructor
  · exact h
  · rfl
  · have hitems : state.snapshot.map (fun dp => (identityKey dp, (⟨dp, 0, 0⟩ : MirrorEntry)))
        = (state.entries.map (forget state.revision)).items := by
      simp only [snapshot, Dict.values, Dict.map, List.map_map]
      apply List.map_congr_left
      intro item hitem
      have hget := Dict.get?_eq_some_iff.mpr hitem
      have hupdated := h.updated_le hget
      have hadded := (h.added_le hget).trans hupdated
      simp only [Function.comp_apply, h.keyed hget, forget, forgetRev, not_lt.mpr hadded,
        not_lt.mpr hupdated, if_false]
    simp only [SessionStateMirror.rehydrate, hitems, Dict.update_empty]
  · rfl
  · exact le_refl state.revision
  · intro since baseline hget
    simp [SessionStateMirror.rehydrate] at hget

namespace Agrees

variable {mirror : SessionStateMirror} {state : SessionState}

/-- Priming a baseline keeps the agreement. -/
theorem prime (h : Agrees mirror state) (since : Revision) :
  ∃ mirror', mirror.primeChangeBaseline state since = .ok mirror' ∧ Agrees mirror' state
    ∧ mirror'.rehydratedAt = mirror.rehydratedAt ∧ mirror'.sessionId = mirror.sessionId
    ∧ (mirror'.rehydratedAt ≤ since ∨ since ∈ mirror'.baselines.keys)
    ∧ ∀ r ∈ mirror.baselines.keys, r ∈ mirror'.baselines.keys
  := by
  rw [SessionStateMirror.primeChangeBaseline, SessionStateMirror.requireHydrated,
    if_pos h.hydrated]
  simp only [bind, Except.bind, pure, Except.pure]
  split
  · rename_i hknown
    exact ⟨mirror, rfl, h, rfl, rfl, hknown, fun _ hr => hr⟩
  · rename_i hnew
    rw [not_or, not_le] at hnew
    refine ⟨_, rfl, ?_, rfl, rfl, ?_, ?_⟩
    · constructor
      · exact h.wellFormed
      · exact h.hydrated
      · exact h.entries
      · exact h.revision
      · exact h.rehydrated_le
      · intro since' baseline hget
        rw [Dict.get?_set] at hget
        split at hget
        · rename_i hsince
          subst hsince
          cases hget
          exact ⟨hnew.1, baselineOf_splits h.wellFormed hnew.1⟩
        · exact h.baselines hget
    · right
      exact Dict.mem_keys_set.mpr (Or.inl rfl)
    · intro r hr
      exact Dict.mem_keys_set.mpr (Or.inr hr)

/-- Applying the resolution of a batch keeps the agreement. -/
theorem apply (h : Agrees mirror state) {dataPoints : List BaseDataPoint} {epoch : Epoch}
    {revision : Revision} {state' : SessionState} :
  let resolution := SessionStateMirror.resolve mirror.entries dataPoints
  state.applyResolved resolution.added.values resolution.updated.values epoch
      = .ok (revision, state') →
    Agrees (mirror.apply resolution revision) state'
  := by
  intro resolution happly
  have hwf := applyResolved_wellFormed h.wellFormed happly
  have hres : resolution.Resolves state.entries.keys := by
    have hres := resolve_resolves mirror.rehydratedAt h.wellFormed dataPoints
    rw [← h.entries] at hres
    exact hres
  rcases Nat.lt_or_ge epoch state.maxEpoch with hlt | hle
  · rw [applyResolved_of_lt hlt] at happly
    cases happly
  · cases hchanged : resolution.changed with
    | false =>
        obtain ⟨hadded, hupdated⟩ := values_of_not_changed hchanged
        rw [hadded, hupdated, applyResolved_nil hle] at happly
        cases happly
        have hsame : mirror.apply resolution state.revision = mirror := by
          rw [SessionStateMirror.apply, List.map_eq_nil_iff.mp hadded,
            List.map_eq_nil_iff.mp hupdated, ← h.revision]
          rfl
        rw [hsame]
        exact ⟨hwf, h.hydrated, h.entries, h.revision, h.rehydrated_le, h.baselines⟩
    | true =>
        rw [changed, Bool.not_eq_true'] at hchanged
        rw [applyResolved_of_le hle hchanged] at happly
        cases happly
        have hn : mirror.rehydratedAt < state.revision + 1 := Nat.lt_succ_of_le h.rehydrated_le
        constructor
        · exact hwf
        · exact h.hydrated
        · exact apply_overlay hn h.entries hres
        · rfl
        · exact hn.le
        · intro since baseline hget
          obtain ⟨hsince, hsplits⟩ := h.baselines hget
          exact ⟨hsince, splits_overlay hsince hn hres hsplits⟩

/-- A batch the store's write rejects is rejected by the mirror, with neither the mirror
nor the store changed. -/
theorem write_error (h : Agrees mirror state) {dataPoints : List BaseDataPoint} {epoch : Epoch}
    {error : OrchestrationError} (hwrite : state.write dataPoints epoch = .error error) :
  mirror.write state dataPoints epoch = (.error error, mirror, state)
  := by
  rw [write_eq_applyResolved h.wellFormed mirror.rehydratedAt, ← h.entries] at hwrite
  rw [SessionStateMirror.write, SessionStateMirror.requireHydrated, if_pos h.hydrated]
  simp only [hwrite]

/-- A batch the store's write accepts leaves the store so through the mirror, at the same
revision, and the mirror agrees with it again. -/
theorem write_ok (h : Agrees mirror state) {dataPoints : List BaseDataPoint} {epoch : Epoch}
    {revision : Revision} {state' : SessionState}
    (hwrite : state.write dataPoints epoch = .ok (revision, state')) :
  let resolution := SessionStateMirror.resolve mirror.entries dataPoints
  mirror.write state dataPoints epoch
      = (.ok ⟨revision, resolution.outcomes⟩, mirror.apply resolution revision, state')
    ∧ Agrees (mirror.apply resolution revision) state'
  := by
  intro resolution
  rw [write_eq_applyResolved h.wellFormed mirror.rehydratedAt, ← h.entries] at hwrite
  constructor
  · rw [SessionStateMirror.write, SessionStateMirror.requireHydrated, if_pos h.hydrated]
    simp only [hwrite, resolution]
  · exact h.apply hwrite

/-! ### What an agreeing mirror answers -/

theorem guardRead (h : Agrees mirror state) :
  mirror.guardRead mirror.sessionId = .ok ()
  := by
  simp [SessionStateMirror.guardRead, SessionStateMirror.requireHydrated, h.hydrated, bind,
    Except.bind, pure, Except.pure]

/-- A mirror that agrees has the store's snapshot. -/
theorem snapshot (h : Agrees mirror state) :
  mirror.snapshot mirror.sessionId = .ok state.snapshot
  := by
  rw [SessionStateMirror.snapshot, h.guardRead, h.entries, Dict.values_map, List.map_map]
  rfl

/-- A mirror that agrees has the store's revision. -/
theorem getRevision (h : Agrees mirror state) :
  mirror.getRevision mirror.sessionId = .ok state.revision
  := by
  rw [SessionStateMirror.getRevision, h.guardRead, h.revision]
  rfl

/-- The local stamps answer for a revision from the rehydrated one on. -/
theorem localChangeSet (h : Agrees mirror state) {since : Revision}
    (hsince : mirror.rehydratedAt ≤ since) :
  mirror.localChangeSet since = state.changeSetSince since
  := by
  have hadded : (fun e : Entry => decide ((forget mirror.rehydratedAt e).addedRev > since))
      = fun e => decide (e.addedRev > since) := by
    funext e
    simp only [forget, gt_iff_lt, lt_forgetRev_of_le hsince]
  have hupdated : (fun e : Entry => decide ((forget mirror.rehydratedAt e).addedRev ≤ since
        ∧ since < (forget mirror.rehydratedAt e).updatedRev))
      = fun e => decide (e.addedRev ≤ since ∧ since < e.updatedRev) := by
    funext e
    simp only [forget, ← not_lt, lt_forgetRev_of_le hsince]
  simp only [SessionStateMirror.localChangeSet, SessionState.changeSetSince, h.entries,
    Dict.values_map, List.filter_map, List.map_map, Function.comp_def, hadded, hupdated]
  rfl

/-- A primed baseline answers for its revision. -/
theorem baselinedChangeSet (h : Agrees mirror state) {since : Revision}
    (hsince : since ∈ mirror.baselines.keys) :
  mirror.baselinedChangeSet since = .ok (state.changeSetSince since)
  := by
  obtain ⟨baseline, hget⟩ := Option.isSome_iff_exists.mp (Dict.get?_isSome_iff.mpr hsince)
  obtain ⟨hlt, hsplits⟩ := h.baselines hget
  have hadded : ∀ item ∈ state.entries.items,
      SessionStateMirror.isAdded baseline since (item.1, forget mirror.rehydratedAt item.2)
        = decide (item.2.addedRev > since) := by
    intro item hitem
    obtain ⟨hsplit, -⟩ := hsplits (Dict.get?_eq_some_iff.mpr hitem)
    rw [SessionStateMirror.isAdded, decide_eq_decide, gt_iff_lt, gt_iff_lt, hsplit, forget,
      lt_forgetRev_of_lt hlt, or_comm]
  have hupdated : ∀ item ∈ state.entries.items,
      (!SessionStateMirror.isAdded baseline since (item.1, forget mirror.rehydratedAt item.2)
        && SessionStateMirror.isUpdated baseline since
            (item.1, forget mirror.rehydratedAt item.2))
        = decide (item.2.addedRev ≤ since ∧ since < item.2.updatedRev) := by
    intro item hitem
    obtain ⟨-, hsplit⟩ := hsplits (Dict.get?_eq_some_iff.mpr hitem)
    rw [hadded item hitem]
    by_cases hle : item.2.addedRev ≤ since
    · simp only [gt_iff_lt, not_lt.mpr hle, decide_false, Bool.not_false, Bool.true_and, hle,
        true_and]
      rw [SessionStateMirror.isUpdated, decide_eq_decide, gt_iff_lt, hsplit hle, forget,
        lt_forgetRev_of_lt hlt]
    · simp only [gt_iff_lt, not_le.mp hle, decide_true, Bool.not_true, Bool.false_and, hle,
        false_and, decide_false]
  simp only [SessionStateMirror.baselinedChangeSet, hget, SessionState.changeSetSince, h.entries,
    Dict.map, Dict.values, List.filter_map, List.map_map, Function.comp_def]
  congr 2
  · rw [List.filter_congr hadded]
    rfl
  · rw [List.filter_congr hupdated]
    rfl

/-- A mirror that agrees answers for the rehydrated revision and later ones, and for every
primed one, what the store answers. -/
theorem changeSetSince (h : Agrees mirror state) {since : Revision}
    (hsince : mirror.rehydratedAt ≤ since ∨ since ∈ mirror.baselines.keys) :
  mirror.changeSetSince mirror.sessionId since = .ok (state.changeSetSince since)
  := by
  rw [SessionStateMirror.changeSetSince, h.guardRead]
  simp only [bind, Except.bind, pure, Except.pure]
  split
  · rename_i hle
    rw [h.localChangeSet hle]
  · rename_i hlt
    exact h.baselinedChangeSet (hsince.resolve_left hlt)

end Agrees

/-! ### A sole mutator -/

/-- What the sole mutator of a session does after it rehydrated its mirror. -/
inductive MutatorAction where
  | write (dataPoints : List BaseDataPoint) (epoch : Epoch)
  | primeChangeBaseline (since : Revision)

/-- A mirror over its backing store, next to a store that gets the same batches through its
own write. -/
structure MirroredSession where
  mirror : SessionStateMirror
  backing : SessionState
  reference : SessionState

namespace MirroredSession

/-- The state a store keeps after a write: the old one, if the write raised. -/
def afterWrite (state : SessionState) (dataPoints : List BaseDataPoint) (epoch : Epoch) :
    SessionState :=
  match state.write dataPoints epoch with
  | .ok (_, state') => state'
  | .error _ => state

/-- One action, on both sides. -/
def step (session : MirroredSession) : MutatorAction → MirroredSession
  | .write dataPoints epoch =>
    let (_, mirror, backing) := session.mirror.write session.backing dataPoints epoch
    ⟨mirror, backing, afterWrite session.reference dataPoints epoch⟩
  | .primeChangeBaseline since =>
    match session.mirror.primeChangeBaseline session.backing since with
    | .ok mirror => { session with mirror := mirror }
    | .error _ => session

/-- The actions of a list, one after another. -/
def run (session : MirroredSession) (actions : List MutatorAction) : MirroredSession :=
  actions.foldl step session

/-- A mirror rehydrated from a state of the store, and a reference in the same state. -/
def start (mirror : SessionStateMirror) (state : SessionState) : MirroredSession :=
  ⟨mirror.rehydrate state, state, state⟩

/-- The two sides are in lockstep. -/
structure Lockstep (mirror₀ : SessionStateMirror) (rehydratedAt : Revision)
    (session : MirroredSession) : Prop where
  agrees : Agrees session.mirror session.backing
  reference : session.reference = session.backing
  sessionId : session.mirror.sessionId = mirror₀.sessionId
  rehydratedAt : session.mirror.rehydratedAt = rehydratedAt

variable {mirror₀ : SessionStateMirror} {rehydratedAt : Revision} {session : MirroredSession}

theorem lockstep_start (mirror : SessionStateMirror) {state : SessionState}
    (h : state.WellFormed) :
  Lockstep mirror state.revision (start mirror state)
  := ⟨agrees_rehydrate mirror h, rfl, rfl, rfl⟩

/-- A batch keeps the two sides in lockstep, and primes and forgets no baseline. -/
theorem lockstep_write (h : Lockstep mirror₀ rehydratedAt session)
    (dataPoints : List BaseDataPoint) (epoch : Epoch) :
  Lockstep mirror₀ rehydratedAt (session.step (.write dataPoints epoch))
    ∧ (session.step (.write dataPoints epoch)).mirror.baselines = session.mirror.baselines
  := by
  rw [step, afterWrite, h.reference]
  cases hwrite : session.backing.write dataPoints epoch with
  | error error =>
      rw [h.agrees.write_error hwrite]
      exact ⟨⟨h.agrees, rfl, h.sessionId, h.rehydratedAt⟩, rfl⟩
  | ok result =>
      obtain ⟨heq, hagrees⟩ := h.agrees.write_ok hwrite
      rw [heq]
      exact ⟨⟨hagrees, rfl, h.sessionId, h.rehydratedAt⟩, rfl⟩

/-- Priming keeps the two sides in lockstep, and keeps the baselines primed before. -/
theorem lockstep_prime (h : Lockstep mirror₀ rehydratedAt session) (since : Revision) :
  Lockstep mirror₀ rehydratedAt (session.step (.primeChangeBaseline since))
    ∧ (rehydratedAt ≤ since
      ∨ since ∈ (session.step (.primeChangeBaseline since)).mirror.baselines.keys)
    ∧ ∀ r ∈ session.mirror.baselines.keys,
      r ∈ (session.step (.primeChangeBaseline since)).mirror.baselines.keys
  := by
  obtain ⟨mirror, hprime, hagrees, hrehydrated, hid, hprimed, hkept⟩ := h.agrees.prime since
  rw [hrehydrated, h.rehydratedAt] at hprimed
  rw [step, hprime]
  exact ⟨⟨hagrees, h.reference, hid.trans h.sessionId, hrehydrated.trans h.rehydratedAt⟩,
    hprimed, hkept⟩

/-- The two sides stay in lockstep over any actions, and a revision primed on the way is
answered for from then on. -/
theorem lockstep_run (actions : List MutatorAction)
    (h : Lockstep mirror₀ rehydratedAt session) :
  Lockstep mirror₀ rehydratedAt (session.run actions)
    ∧ ∀ since,
      since ∈ session.mirror.baselines.keys ∨ .primeChangeBaseline since ∈ actions →
      rehydratedAt ≤ since ∨ since ∈ (session.run actions).mirror.baselines.keys
  := by
  induction actions generalizing session with
  | nil =>
      refine ⟨h, fun since hsince => Or.inr ?_⟩
      exact hsince.resolve_right List.not_mem_nil
  | cons action actions ih =>
      cases action with
      | write dataPoints epoch =>
          obtain ⟨hstep, hbaselines⟩ := lockstep_write h dataPoints epoch
          obtain ⟨hrun, hprimed⟩ := ih hstep
          refine ⟨hrun, fun since hsince => hprimed since ?_⟩
          rw [hbaselines]
          simpa using hsince
      | primeChangeBaseline r =>
          obtain ⟨hstep, hprime, hkept⟩ := lockstep_prime h r
          obtain ⟨hrun, hprimed⟩ := ih hstep
          refine ⟨hrun, fun since hsince => ?_⟩
          simp only [List.mem_cons, MutatorAction.primeChangeBaseline.injEq] at hsince
          rcases hsince with hsince | rfl | hsince
          · exact hprimed since (Or.inl (hkept since hsince))
          · exact hprime.elim Or.inl (fun hkey => hprimed since (Or.inl hkey))
          · exact hprimed since (Or.inr hsince)

end MirroredSession

/-- A write through a mirror that raises leaves the mirror and the store as they were,
whatever the store has become in the meantime. -/
theorem SessionStateMirror.write_error_unchanged {mirror : SessionStateMirror}
    {store : SessionState} {dataPoints : List BaseDataPoint} {epoch : Epoch}
    {error : OrchestrationError} (h : (mirror.write store dataPoints epoch).1 = .error error) :
  (mirror.write store dataPoints epoch).2 = (mirror, store)
  := by
  rw [SessionStateMirror.write] at h ⊢
  cases hrequire : mirror.requireHydrated with
  | error e => rfl
  | ok _ =>
      rw [hrequire] at h
      simp only at h ⊢
      cases happly : store.applyResolved (resolve mirror.entries dataPoints).added.values
          (resolve mirror.entries dataPoints).updated.values epoch with
      | error e => rfl
      | ok result =>
          rw [happly] at h
          cases h

/-- A mirror rehydrated from any state, and its backing store, follow a store that starts
from that state and gets the same batches through its own write: the same snapshot, the
same revision, and the same change set since every revision from the rehydrated one on and
since every primed one. A batch that is rejected leaves the mirror as it was. -/
theorem mirror_simulates_store (mirror₀ : SessionStateMirror) (state : StoreState)
    (actions : List MutatorAction) :
  let session := (MirroredSession.start mirror₀ state.1).run actions
  session.mirror.snapshot mirror₀.sessionId = .ok session.reference.snapshot
    ∧ session.backing.snapshot = session.reference.snapshot
    ∧ session.mirror.getRevision mirror₀.sessionId = .ok session.reference.revision
    ∧ session.backing.revision = session.reference.revision
    ∧ (∀ since, state.1.revision ≤ since ∨ .primeChangeBaseline since ∈ actions →
      session.mirror.changeSetSince mirror₀.sessionId since
          = .ok (session.reference.changeSetSince since)
        ∧ session.backing.changeSetSince since = session.reference.changeSetSince since)
    ∧ ∀ store dataPoints epoch error,
      (session.mirror.write store dataPoints epoch).1 = .error error →
      (session.mirror.write store dataPoints epoch).2 = (session.mirror, store)
  := by
  intro session
  obtain ⟨hrun, hprimed⟩ :=
    MirroredSession.lockstep_run actions (MirroredSession.lockstep_start mirror₀ state.2)
  rw [hrun.reference, ← hrun.sessionId]
  refine ⟨hrun.agrees.snapshot, rfl, hrun.agrees.getRevision, rfl, ?_, ?_⟩
  · intro since hsince
    constructor
    · apply hrun.agrees.changeSetSince
      rw [hrun.rehydratedAt]
      exact hsince.elim Or.inl (fun hprime => hprimed since (Or.inr hprime))
    · rfl
  · intro store dataPoints epoch error
    exact SessionStateMirror.write_error_unchanged

end Orcastork
