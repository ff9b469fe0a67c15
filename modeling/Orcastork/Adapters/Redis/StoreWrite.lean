import Mathlib.Data.List.Induction
import Orcastork.Adapters.Redis.StoreSimulation

/-!
# The keyed merge of the Redis store

The in-memory store merges the DataPoints of a batch into a running state. The Redis store
decides what to do with each by the DataPoints it has read before the batch, and its script
then stores one triple after another, so of several triples of one identity the last stays.

The two agree exactly on the batches in which that last triple is what the running merge ends
with (`writeAgrees_iff`).
-/

namespace Orcastork

open SessionState

/-! ### What a batch writes -/

/-- Whether an observation is written over the entries there were before its batch: its
identity is new, or it is newer than what is known. -/
def isWritten (entries : Entries) (d : BaseDataPoint) : Bool :=
  match entries.get? (identityKey d) with
  | none => true
  | some entry => entry.dataPoint.lastRetrieved < d.lastRetrieved

/-- The observations of an identity that a batch writes, in their order. -/
def written (entries : Entries) (key : IdentityKey) (dataPoints : List BaseDataPoint) :
    List BaseDataPoint :=
  dataPoints.filter (fun d => isWritten entries d ∧ identityKey d = key)

/-- A DataPoint freshened by observations one after another. -/
def reobservedBy (d : BaseDataPoint) (observations : List BaseDataPoint) : BaseDataPoint :=
  observations.foldl (fun d d' => d.reobserved d'.lastRetrieved) d

/-- The entry an identity has after the observations a batch writes for it. -/
def mergedEntry (n : Revision) : Option Entry → List BaseDataPoint → Option Entry
  | none, [] => none
  | none, d :: observations => some ⟨reobservedBy d observations, n, n⟩
  | some entry, [] => some entry
  | some entry, d :: observations =>
    some ⟨reobservedBy entry.dataPoint (d :: observations), entry.addedRev, n⟩

@[simp]
theorem mergedEntry_nil (n : Revision) (old : Option Entry) :
  mergedEntry n old [] = old
  := by
  cases old with
  | none => rfl
  | some entry => rfl

theorem reobservedBy_concat (d d' : BaseDataPoint) (observations : List BaseDataPoint) :
  reobservedBy d (observations ++ [d']) = (reobservedBy d observations).reobserved d'.lastRetrieved
  := by
  rw [reobservedBy, List.foldl_append]
  rfl

/-- Freshening moves the last observation only. -/
theorem reobservedBy_eq (d : BaseDataPoint) (observations : List BaseDataPoint) :
  reobservedBy d observations = d.reobserved (reobservedBy d observations).lastRetrieved
  := by
  induction observations using List.reverseRecOn with
  | nil => exact (reobserved_of_le (le_refl _)).symm
  | append_singleton observations d' ih =>
      rw [reobservedBy_concat, lastRetrieved_reobserved, ← reobserved_reobserved, ← ih]

theorem le_last_reobservedBy (d : BaseDataPoint) (observations : List BaseDataPoint) :
  d.lastRetrieved ≤ (reobservedBy d observations).lastRetrieved
  := by
  rw [reobservedBy_eq, lastRetrieved_reobserved]
  apply le_max_left

/-- Freshening by observations none of which is later than `t` leads to a time up to `t` exactly
when it starts at one. -/
theorem last_reobservedBy_le_iff {d : BaseDataPoint} {observations : List BaseDataPoint}
    {t : Timestamp} :
  (reobservedBy d observations).lastRetrieved ≤ t
    ↔ d.lastRetrieved ≤ t ∧ ∀ d' ∈ observations, d'.lastRetrieved ≤ t
  := by
  induction observations generalizing d with
  | nil => simp [reobservedBy]
  | cons d' observations ih =>
      have hcons : reobservedBy d (d' :: observations)
          = reobservedBy (d.reobserved d'.lastRetrieved) observations := rfl
      rw [hcons, ih, lastRetrieved_reobserved, max_le_iff, List.forall_mem_cons, and_assoc]

theorem written_concat (entries : Entries) (key : IdentityKey) (dataPoints : List BaseDataPoint)
    (d : BaseDataPoint) :
  written entries key (dataPoints ++ [d])
    = written entries key dataPoints
      ++ if isWritten entries d ∧ identityKey d = key then [d] else []
  := by
  rw [written, List.filter_append, List.filter_singleton, written]
  congr 1
  by_cases h : isWritten entries d = true ∧ identityKey d = key
  · rw [if_pos h, decide_eq_true h]
    rfl
  · rw [if_neg h, decide_eq_false h]
    rfl

theorem isWritten_of_mem {entries : Entries} {key : IdentityKey} {dataPoints : List BaseDataPoint}
    {d : BaseDataPoint} (h : d ∈ written entries key dataPoints) :
  d ∈ dataPoints ∧ isWritten entries d = true ∧ identityKey d = key
  := by
  simpa [written] using h

/-! ### The running merge -/

/-- Merging a DataPoint into an entry the batch has stamped leaves the later of the two
observations. -/
theorem mergeOne_stamped {n addedRev : Revision} {merged : Entries} {changed : Bool}
    {d known : BaseDataPoint} (h : merged.get? (identityKey d) = some ⟨known, addedRev, n⟩) :
  (mergeOne n (merged, changed) d).1.get? (identityKey d)
    = some ⟨known.reobserved d.lastRetrieved, addedRev, n⟩
  := by
  rcases lt_or_ge known.lastRetrieved d.lastRetrieved with hlt | hle
  · rw [mergeOne_newer h hlt, Dict.get?_set_self]
  · rw [mergeOne_not_newer h hle, reobserved_of_le hle, h]

/-- Merging one more DataPoint into the entry that a batch has left at its identity. -/
theorem mergeOne_merged {n : Revision} {entries merged : Entries} {changed : Bool}
    {d : BaseDataPoint} {observations : List BaseDataPoint}
    (hmerged : merged.get? (identityKey d)
      = mergedEntry n (entries.get? (identityKey d)) observations) :
  (mergeOne n (merged, changed) d).1.get? (identityKey d)
    = mergedEntry n (entries.get? (identityKey d))
        (observations ++ if isWritten entries d then [d] else [])
  := by
  cases hentry : entries.get? (identityKey d) with
  | none =>
      have hwritten : isWritten entries d = true := by
        simp only [isWritten, hentry]
      rw [hentry] at hmerged
      rw [if_pos hwritten]
      cases observations with
      | nil =>
          rw [mergeOne_new hmerged, Dict.get?_set_self]
          rfl
      | cons d' observations =>
          rw [mergeOne_stamped hmerged, List.cons_append, mergedEntry, reobservedBy_concat]
  | some entry =>
      rw [hentry] at hmerged
      rcases lt_or_ge entry.dataPoint.lastRetrieved d.lastRetrieved with hlt | hle
      · have hwritten : isWritten entries d = true := by
          simp only [isWritten, hentry, hlt, decide_true]
        rw [if_pos hwritten]
        cases observations with
        | nil =>
            rw [mergeOne_newer hmerged hlt, Dict.get?_set_self]
            rfl
        | cons d' observations =>
            rw [mergeOne_stamped hmerged, List.cons_append, mergedEntry, ← List.cons_append,
              reobservedBy_concat]
      · have hwritten : ¬isWritten entries d = true := by
          simp only [isWritten, hentry, not_lt.mpr hle, decide_false, Bool.false_eq_true,
            not_false_eq_true]
        rw [if_neg hwritten, List.append_nil]
        cases observations with
        | nil => rw [mergeOne_not_newer hmerged hle, hmerged]
        | cons d' observations =>
            have hlast := hle.trans (le_last_reobservedBy entry.dataPoint (d' :: observations))
            rw [mergeOne_not_newer hmerged hlast, hmerged]

/-- Merging a DataPoint leaves the other identities alone. -/
theorem mergeOne_get?_of_ne {n : Revision} {merged : Entries} {changed : Bool} {d : BaseDataPoint}
    {key : IdentityKey} (hne : identityKey d ≠ key) :
  (mergeOne n (merged, changed) d).1.get? key = merged.get? key
  := by
  simp only [mergeOne]
  split
  · apply Dict.get?_set_of_ne _ hne
  · split
    · apply Dict.get?_set_of_ne _ hne
    · rfl

/-- After the running merge every identity has the entry its written observations make. -/
theorem get?_foldl_mergeOne (n : Revision) (entries : Entries) (changed : Bool)
    (dataPoints : List BaseDataPoint) (key : IdentityKey) :
  (dataPoints.foldl (mergeOne n) (entries, changed)).1.get? key
    = mergedEntry n (entries.get? key) (written entries key dataPoints)
  := by
  induction dataPoints using List.reverseRecOn with
  | nil =>
      cases hentry : entries.get? key with
      | none => simp [written, mergedEntry, hentry]
      | some entry => simp [written, mergedEntry, hentry]
  | append_singleton dataPoints d ih =>
      rw [List.foldl_append, List.foldl_cons, List.foldl_nil, written_concat]
      by_cases hkey : identityKey d = key
      · subst hkey
        simp only [and_true]
        apply mergeOne_merged ih
      · simp only [hkey, and_false, if_false, List.append_nil]
        rw [← ih]
        apply mergeOne_get?_of_ne hkey

/-- The running merge changes something exactly when it writes something. -/
theorem foldl_mergeOne_changed (n : Revision) (entries : Entries)
    (dataPoints : List BaseDataPoint) :
  (dataPoints.foldl (mergeOne n) (entries, false)).2 = dataPoints.any (isWritten entries)
  := by
  induction dataPoints using List.reverseRecOn with
  | nil => rfl
  | append_singleton dataPoints d ih =>
      rw [List.foldl_append, List.foldl_cons, List.foldl_nil, List.any_append, ← ih]
      cases hchanged : (dataPoints.foldl (mergeOne n) (entries, false)).2 with
      | false =>
          rw [foldl_mergeOne_unchanged hchanged]
          cases hget : entries.get? (identityKey d) with
          | none =>
              rw [mergeOne_new hget]
              simp [isWritten, hget]
          | some entry =>
              rcases lt_or_ge entry.dataPoint.lastRetrieved d.lastRetrieved with hlt | hle
              · rw [mergeOne_newer hget hlt]
                simp [isWritten, hget, hlt]
              · rw [mergeOne_not_newer hget hle]
                simp [isWritten, hget, hle]
      | true =>
          simp only [mergeOne, Bool.true_or]
          split
          · rfl
          · split
            · rfl
            · apply hchanged

/-! ### The script's loop -/

namespace RedisSession

/-- The triples of a list for one identity. -/
def triplesFor (identity : String) (triples : List Triple) : List Triple :=
  triples.filter (fun triple => triple.identity = identity)

theorem triplesFor_concat (identity : String) (triples : List Triple) (triple : Triple) :
  triplesFor identity (triples ++ [triple])
    = triplesFor identity triples ++ if triple.identity = identity then [triple] else []
  := by
  rw [triplesFor, List.filter_append, List.filter_singleton, triplesFor]
  congr 1
  by_cases h : triple.identity = identity
  · rw [if_pos h, decide_eq_true h]
    rfl
  · rw [if_neg h, decide_eq_false h]
    rfl

variable (n : Revision) (triples : List Triple) (session : RedisSession) (identity : String)

/-- After the loop the last triple of an identity stands in its field. -/
theorem dp_foldl_storeTriple :
  (triples.foldl (storeTriple n) session).dp.get? identity
    = ((triplesFor identity triples).getLast?.map Triple.json).or (session.dp.get? identity)
  := by
  induction triples using List.reverseRecOn with
  | nil => rfl
  | append_singleton triples triple ih =>
      rw [List.foldl_append, List.foldl_cons, List.foldl_nil, triplesFor_concat, storeTriple,
        Dict.get?_set]
      split
      · rw [List.getLast?_append]
        rfl
      · rw [List.append_nil]
        apply ih

/-- After the loop the updated stamp of every stored identity is the revision. -/
theorem upd_foldl_storeTriple :
  (triples.foldl (storeTriple n) session).upd.get? identity
    = ((triplesFor identity triples).getLast?.map (fun _ => n)).or (session.upd.get? identity)
  := by
  induction triples using List.reverseRecOn with
  | nil => rfl
  | append_singleton triples triple ih =>
      rw [List.foldl_append, List.foldl_cons, List.foldl_nil, triplesFor_concat, storeTriple,
        Dict.get?_set]
      split
      · rw [List.getLast?_append]
        rfl
      · rw [List.append_nil]
        apply ih

/-- After the loop the added stamp of an identity whose triples are all of one mode is the
revision if that is the mode of new identities. -/
theorem added_foldl_storeTriple {mode : WriteMode}
    (hmode : ∀ triple ∈ triples, triple.identity = identity → triple.mode = mode) :
  (triples.foldl (storeTriple n) session).added.get? identity
    = if mode = .a then
        ((triplesFor identity triples).getLast?.map (fun _ => n)).or (session.added.get? identity)
      else session.added.get? identity
  := by
  induction triples using List.reverseRecOn with
  | nil =>
      split
      · rfl
      · rfl
  | append_singleton triples triple ih =>
      have ih := ih (fun t ht => hmode t (List.mem_append_left [triple] ht))
      rw [List.foldl_append, List.foldl_cons, List.foldl_nil, triplesFor_concat, storeTriple]
      by_cases hidentity : triple.identity = identity
      · have htriple := hmode triple (List.mem_append_right triples List.mem_cons_self) hidentity
        simp only [htriple, hidentity, if_true]
        split
        · rename_i ha
          rw [Dict.get?_set, if_pos rfl, List.getLast?_append]
          rfl
        · rename_i ha
          rw [ih, if_neg ha]
      · simp only [hidentity, if_false, List.append_nil]
        rw [← ih]
        split
        · apply Dict.get?_set_of_ne _ hidentity
        · rfl

end RedisSession

/-! ### The triples of a batch -/

/-- What the script is given to store for a written observation: a new one as it is, the known
DataPoint freshened by a newer one. -/
def storedAs (entries : Entries) (d : BaseDataPoint) : BaseDataPoint :=
  match entries.get? (identityKey d) with
  | none => d
  | some entry => entry.dataPoint.reobserved d.lastRetrieved

/-- The mode of a triple for an identity. -/
def modeOf (entries : Entries) (key : IdentityKey) : WriteMode :=
  if (entries.get? key).isNone then .a else .u

/-- The triple of a written observation. -/
def tripleFor (wire : Wire) (entries : Entries) (d : BaseDataPoint) : Triple :=
  ⟨wire.identity d, modeOf entries (identityKey d), wire.dumps (storedAs entries d)⟩

variable {wire : Wire} {inPlay : BaseDataPoint → Prop} {entries : Entries} {session : RedisSession}
variable {dataPoints : List BaseDataPoint}

theorem storedAs_inPlay (hwire : wire.FaithfulOn inPlay) (h : Stored wire inPlay entries session)
    {d : BaseDataPoint} (hd : inPlay d) :
  inPlay (storedAs entries d)
  := by
  rw [storedAs]
  split
  · apply hd
  · rename_i entry hentry
    apply hwire.reobserved (h.mem hentry) hd

/-- A DataPoint has a triple exactly when the running merge would write it. -/
theorem tripleOf_eq (hwire : wire.FaithfulOn inPlay) (h : Stored wire inPlay entries session)
    {d : BaseDataPoint} (hd : inPlay d) :
  RedisSession.tripleOf wire session.dp d
    = .ok (if isWritten entries d then some (tripleFor wire entries d) else none)
  := by
  have hdp := h.dp hd
  cases hentry : entries.get? (identityKey d) with
  | none =>
      rw [hentry] at hdp
      simp only [RedisSession.tripleOf, hdp, Option.map_none, isWritten, tripleFor, modeOf, storedAs,
        hentry, Option.isNone_none, if_true]
  | some entry =>
      rw [hentry] at hdp
      simp only [RedisSession.tripleOf, hdp, Option.map_some, hwire.parse_dumps (h.mem hentry),
        isWritten, tripleFor, modeOf, storedAs, hentry, Option.isNone_some, Bool.false_eq_true,
        if_false, gt_iff_lt, decide_eq_true_eq]
      rw [bind, Monad.toBind, Except.instMonad]
      simp only [Except.bind]
      split
      · rfl
      · rfl

theorem writeTriples_eq (hwire : wire.FaithfulOn inPlay) (h : Stored wire inPlay entries session)
    (hmem : ∀ d ∈ dataPoints, inPlay d) :
  RedisSession.writeTriples wire session.dp dataPoints
    = .ok ((dataPoints.filter (isWritten entries)).map (tripleFor wire entries))
  := by
  induction dataPoints with
  | nil => rfl
  | cons d dataPoints ih =>
      rw [RedisSession.writeTriples, tripleOf_eq hwire h (hmem d List.mem_cons_self),
        ih (fun d' hd' => hmem d' (List.mem_cons_of_mem d hd'))]
      cases hwritten : isWritten entries d with
      | false =>
          rw [List.filter_cons_of_neg (by simp [hwritten])]
          rfl
      | true =>
          rw [List.filter_cons_of_pos hwritten]
          rfl

/-- The triples for an identity are those of its written observations. -/
theorem triplesFor_eq (hwire : wire.FaithfulOn inPlay) (hmem : ∀ d ∈ dataPoints, inPlay d)
    {d : BaseDataPoint} (hd : inPlay d) :
  RedisSession.triplesFor (wire.identity d)
      ((dataPoints.filter (isWritten entries)).map (tripleFor wire entries))
    = (written entries (identityKey d) dataPoints).map (tripleFor wire entries)
  := by
  rw [RedisSession.triplesFor, List.filter_map, List.filter_filter, written]
  congr 1
  apply List.filter_congr
  intro d' hd'
  have hsame := hwire.identity_eq_iff (hmem d' hd') hd
  simp only [Function.comp_apply, tripleFor, hsame, Bool.decide_and, Bool.and_comm,
    Bool.decide_eq_true]

/-! ### When the last triple is the merge -/

/-- Of the observations of an identity that a batch writes, the last is the latest, and where the
identity is new it is the first one seen again. -/
def LastWins (entries : Entries) (dataPoints : List BaseDataPoint) : Prop :=
  ∀ key w, (written entries key dataPoints).getLast? = some w →
    (∀ d ∈ written entries key dataPoints, d.lastRetrieved ≤ w.lastRetrieved)
      ∧ (entries.get? key = none → ∀ d, (written entries key dataPoints).head? = some d →
        w = d.reobserved w.lastRetrieved)

theorem reobservedBy_inPlay (hwire : wire.FaithfulOn inPlay) {d : BaseDataPoint} (hd : inPlay d)
    {observations : List BaseDataPoint} (hmem : ∀ d' ∈ observations, inPlay d') :
  inPlay (reobservedBy d observations)
  := by
  induction observations generalizing d with
  | nil => apply hd
  | cons d' observations ih =>
      obtain ⟨hd', hmem⟩ := List.forall_mem_cons.mp hmem
      apply ih (hwire.reobserved hd hd') hmem

theorem mergedEntry_inPlay (hwire : wire.FaithfulOn inPlay) {n : Revision} {old : Option Entry}
    {observations : List BaseDataPoint} {entry : Entry} (hold : ∀ e, old = some e → inPlay e.dataPoint)
    (hmem : ∀ d ∈ observations, inPlay d) (h : mergedEntry n old observations = some entry) :
  inPlay entry.dataPoint
  := by
  cases old with
  | none =>
      cases observations with
      | nil => cases h
      | cons d observations =>
          obtain ⟨hd, hmem⟩ := List.forall_mem_cons.mp hmem
          cases h
          apply reobservedBy_inPlay hwire hd hmem
  | some e =>
      cases observations with
      | nil =>
          cases h
          apply hold _ rfl
      | cons d observations =>
          cases h
          apply reobservedBy_inPlay hwire (hold e rfl) hmem

/-- Freshening ends at the time of the latest observation, if the last of them is it. -/
theorem last_reobservedBy_eq_iff {d w : BaseDataPoint} {observations : List BaseDataPoint}
    (hmem : w ∈ d :: observations) :
  (reobservedBy d observations).lastRetrieved = w.lastRetrieved
    ↔ ∀ d' ∈ d :: observations, d'.lastRetrieved ≤ w.lastRetrieved
  := by
  have hle : ∀ t, (reobservedBy d observations).lastRetrieved ≤ t
      ↔ ∀ d' ∈ d :: observations, d'.lastRetrieved ≤ t := by
    intro t
    rw [last_reobservedBy_le_iff, List.forall_mem_cons]
  rw [← hle]
  constructor
  · intro heq
    rw [heq]
  · intro htime
    apply le_antisymm htime
    apply (hle _).mp (le_refl _) w hmem

/-- The entry that the merge makes of the written observations holds what the last of them has
in its triple exactly when that observation is the latest and, of a new identity, the first one
seen again. -/
theorem mergedEntry_eq_storedAs_iff {key : IdentityKey} {w : BaseDataPoint} (n : Revision)
    (hlast : (written entries key dataPoints).getLast? = some w) :
  ∃ entry, mergedEntry n (entries.get? key) (written entries key dataPoints) = some entry
    ∧ entry.updatedRev = n
    ∧ entry.addedRev = (if modeOf entries key = .a then n
        else ((entries.get? key).map Entry.addedRev).getD 0)
    ∧ (entry.dataPoint = storedAs entries w
      ↔ (∀ d ∈ written entries key dataPoints, d.lastRetrieved ≤ w.lastRetrieved)
        ∧ (entries.get? key = none → ∀ d, (written entries key dataPoints).head? = some d →
          w = d.reobserved w.lastRetrieved))
  := by
  have hmem := List.mem_of_getLast? hlast
  obtain ⟨-, hw, hkey⟩ := isWritten_of_mem hmem
  cases hwritten : written entries key dataPoints with
  | nil =>
      rw [hwritten] at hlast
      cases hlast
  | cons d observations =>
      rw [hwritten] at hmem
      cases hentry : entries.get? key with
      | none =>
          refine ⟨_, rfl, rfl, ?_, ?_⟩
          · simp [modeOf, hentry]
          · have hstored : storedAs entries w = w := by
              simp only [storedAs, hkey, hentry]
            rw [hstored]
            simp only [List.head?_cons, Option.some.injEq, forall_const, forall_eq']
            rw [← last_reobservedBy_eq_iff hmem]
            constructor
            · intro heq
              constructor
              · rw [heq]
              · rw [← heq]
                apply reobservedBy_eq
            · rintro ⟨htime, heq⟩
              rw [reobservedBy_eq, htime, ← heq]
      | some e =>
          refine ⟨_, rfl, rfl, ?_, ?_⟩
          · simp [modeOf, hentry]
          · have hstored : storedAs entries w = e.dataPoint.reobserved w.lastRetrieved := by
              simp only [storedAs, hkey, hentry]
            have hnewer : e.dataPoint.lastRetrieved < w.lastRetrieved := by
              simpa [isWritten, hkey, hentry] using hw
            have htime := last_reobservedBy_eq_iff (List.mem_cons_of_mem e.dataPoint hmem)
            rw [List.forall_mem_cons, and_iff_right hnewer.le] at htime
            rw [hstored, ← htime]
            simp only [reduceCtorEq, false_implies, and_true]
            constructor
            · intro heq
              rw [heq, lastRetrieved_reobserved, max_eq_right hnewer.le]
            · intro heq
              rw [reobservedBy_eq, heq]

variable {n : Revision}

/-- After the merge and after the script the hashes hold the entries exactly if the last triple of
every identity is what the merge makes of it. -/
theorem stored_write_iff (hwire : wire.FaithfulOn inPlay) (h : Stored wire inPlay entries session)
    (hmem : ∀ d ∈ dataPoints, inPlay d) :
  Stored wire inPlay (dataPoints.foldl (mergeOne n) (entries, false)).1
      (((dataPoints.filter (isWritten entries)).map (tripleFor wire entries)).foldl
        (RedisSession.storeTriple n) session)
    ↔ LastWins entries dataPoints
  := by
  constructor
  · intro h' key w hlast
    obtain ⟨entry, hentry, -, -, hiff⟩ := mergedEntry_eq_storedAs_iff n hlast
    apply hiff.mp
    obtain ⟨hw, -, hkey⟩ := isWritten_of_mem (List.mem_of_getLast? hlast)
    have hdp := h'.dp (hmem w hw)
    rw [RedisSession.dp_foldl_storeTriple, triplesFor_eq hwire hmem (hmem w hw), hkey,
      List.getLast?_map, hlast, get?_foldl_mergeOne, hentry] at hdp
    have hparse := hwire.parse_dumps (storedAs_inPlay hwire h (hmem w hw))
    have hentry' : inPlay entry.dataPoint := by
      apply h'.mem
      rw [get?_foldl_mergeOne, hentry]
    simp only [Option.map_some, Option.some_or, tripleFor, Option.some.injEq] at hdp
    rw [hdp, hwire.parse_dumps hentry', Except.ok.injEq] at hparse
    apply hparse
  · intro hlast
    constructor
    · intro key entry hentry
      rw [get?_foldl_mergeOne] at hentry
      apply mergedEntry_inPlay hwire (fun e he => h.mem he) _ hentry
      intro d hd
      apply hmem d (isWritten_of_mem hd).1
    · intro identity raw hraw
      rw [RedisSession.dp_foldl_storeTriple] at hraw
      cases htriple : (RedisSession.triplesFor identity
          ((dataPoints.filter (isWritten entries)).map (tripleFor wire entries))).getLast? with
      | none =>
          rw [htriple] at hraw
          apply h.fields hraw
      | some triple =>
          have hmemTriple := List.mem_of_getLast? htriple
          rw [RedisSession.triplesFor, List.mem_filter, List.mem_map] at hmemTriple
          obtain ⟨⟨d, hd, rfl⟩, hidentity⟩ := hmemTriple
          use d, hmem d (List.mem_of_mem_filter hd)
          apply of_decide_eq_true hidentity
    · intro d hd
      rw [RedisSession.dp_foldl_storeTriple, triplesFor_eq hwire hmem hd, List.getLast?_map,
        get?_foldl_mergeOne]
      cases hw : (written entries (identityKey d) dataPoints).getLast? with
      | none =>
          rw [List.getLast?_eq_none_iff.mp hw, mergedEntry_nil]
          apply h.dp hd
      | some w =>
          obtain ⟨entry, hentry, -, -, hiff⟩ := mergedEntry_eq_storedAs_iff n hw
          simp only [hentry, Option.map_some, Option.some_or, hiff.mpr (hlast _ w hw), tripleFor]
    · intro d hd
      have hmode : ∀ triple ∈ (dataPoints.filter (isWritten entries)).map (tripleFor wire entries),
          triple.identity = wire.identity d → triple.mode = modeOf entries (identityKey d) := by
        intro triple htriple hidentity
        obtain ⟨d', hd', rfl⟩ := List.mem_map.mp htriple
        have hkey := (hwire.identity_eq_iff (hmem d' (List.mem_of_mem_filter hd')) hd).mp hidentity
        rw [tripleFor, hkey]
      rw [RedisSession.added_foldl_storeTriple n _ session _ hmode, triplesFor_eq hwire hmem hd,
        List.getLast?_map, get?_foldl_mergeOne]
      cases hw : (written entries (identityKey d) dataPoints).getLast? with
      | none =>
          rw [List.getLast?_eq_none_iff.mp hw, mergedEntry_nil, ← h.added hd]
          split
          · rfl
          · rfl
      | some w =>
          obtain ⟨entry, hentry, -, hadded, -⟩ := mergedEntry_eq_storedAs_iff n hw
          simp only [hentry, Option.map_some, Option.getD_some, hadded]
          split
          · rfl
          · apply h.added hd
    · intro d hd
      rw [RedisSession.upd_foldl_storeTriple, triplesFor_eq hwire hmem hd, List.getLast?_map,
        get?_foldl_mergeOne]
      cases hw : (written entries (identityKey d) dataPoints).getLast? with
      | none =>
          rw [List.getLast?_eq_none_iff.mp hw, mergedEntry_nil]
          apply h.upd hd
      | some w =>
          obtain ⟨entry, hentry, hupd, -, -⟩ := mergedEntry_eq_storedAs_iff n hw
          simp only [hentry, Option.map_some, Option.some_or, Option.getD_some, hupd]

/-! ### Observations do not go back -/

/-- The merge moves no identity's last observation back. -/
theorem merge_monotone {key : IdentityKey} {entry : Entry} (hentry : entries.get? key = some entry) :
  ∃ entry', (dataPoints.foldl (mergeOne n) (entries, false)).1.get? key = some entry'
    ∧ entry.dataPoint.lastRetrieved ≤ entry'.dataPoint.lastRetrieved
  := by
  rw [get?_foldl_mergeOne, hentry]
  cases written entries key dataPoints with
  | nil => exact ⟨entry, rfl, le_refl _⟩
  | cons d observations => exact ⟨_, rfl, le_last_reobservedBy _ _⟩

/-- A DataPoint read from a field is the entry of its identity. -/
theorem Stored.entry_of_parse (hwire : wire.FaithfulOn inPlay)
    (h : Stored wire inPlay entries session) {identity raw : String} {d : BaseDataPoint}
    (hraw : session.dp.get? identity = some raw) (hparse : wire.parse raw = .ok d) :
  ∃ d₀ entry, inPlay d₀ ∧ wire.identity d₀ = identity
    ∧ entries.get? (identityKey d₀) = some entry ∧ entry.dataPoint = d
  := by
  obtain ⟨d₀, hd₀, rfl⟩ := h.fields hraw
  have hdp := h.dp hd₀
  rw [hraw] at hdp
  cases hentry : entries.get? (identityKey d₀) with
  | none =>
      rw [hentry] at hdp
      cases hdp
  | some entry =>
      rw [hentry] at hdp
      cases hdp
      rw [hwire.parse_dumps (h.mem hentry), Except.ok.injEq] at hparse
      use d₀, entry

/-- The script moves no identity's last observation back. -/
theorem script_monotone (hwire : wire.FaithfulOn inPlay) (h : Stored wire inPlay entries session)
    (hmem : ∀ d ∈ dataPoints, inPlay d) {identity raw : String} {d : BaseDataPoint}
    (hraw : session.dp.get? identity = some raw) (hparse : wire.parse raw = .ok d) :
  ∃ raw' d', (((dataPoints.filter (isWritten entries)).map (tripleFor wire entries)).foldl
        (RedisSession.storeTriple n) session).dp.get? identity = some raw'
    ∧ wire.parse raw' = .ok d' ∧ d.lastRetrieved ≤ d'.lastRetrieved
  := by
  obtain ⟨d₀, entry, hd₀, rfl, hentry, rfl⟩ := h.entry_of_parse hwire hraw hparse
  rw [RedisSession.dp_foldl_storeTriple, triplesFor_eq hwire hmem hd₀, List.getLast?_map]
  cases hw : (written entries (identityKey d₀) dataPoints).getLast? with
  | none => exact ⟨raw, _, hraw, hparse, le_refl _⟩
  | some w =>
      obtain ⟨hwmem, -, hkey⟩ := isWritten_of_mem (List.mem_of_getLast? hw)
      refine ⟨_, storedAs entries w, rfl, ?_, ?_⟩
      · apply hwire.parse_dumps (storedAs_inPlay hwire h (hmem w hwmem))
      · simp only [storedAs, hkey, hentry, lastRetrieved_reobserved]
        apply le_max_left

/-! ### The keyed merge in both stores -/

/-- A batch written in both stores: the outcomes are the same, the next states correspond and
report the same changes since any revision, and no identity's last observation goes back. -/
structure WriteAgrees (wire : Wire) (inPlay : BaseDataPoint → Prop) (state : SessionState)
    (session : RedisSession) (sessionId : SessionId) (dataPoints : List BaseDataPoint)
    (epoch : Epoch) : Prop where
  outcome : SameOutcome sessionId (.write dataPoints epoch) state.maxEpoch
    (state.perform (.write dataPoints epoch)).1
    (session.perform wire sessionId none (.write dataPoints epoch)).1
  next : Corresponds wire inPlay (state.perform (.write dataPoints epoch)).2
    (session.perform wire sessionId none (.write dataPoints epoch)).2
  changes : ∀ since, ∃ changes,
    (session.perform wire sessionId none (.write dataPoints epoch)).2.changeSetSince wire since
        = .ok changes
      ∧ changes.Same ((state.perform (.write dataPoints epoch)).2.changeSetSince since)
  memory_monotone : ∀ key entry, state.entries.get? key = some entry →
    ∃ entry', (state.perform (.write dataPoints epoch)).2.entries.get? key = some entry'
      ∧ entry.dataPoint.lastRetrieved ≤ entry'.dataPoint.lastRetrieved
  redis_monotone : ∀ identity raw d, session.dp.get? identity = some raw → wire.parse raw = .ok d →
    ∃ raw' d', (session.perform wire sessionId none (.write dataPoints epoch)).2.dp.get? identity
        = some raw'
      ∧ wire.parse raw' = .ok d' ∧ d.lastRetrieved ≤ d'.lastRetrieved

section

variable {state : SessionState} {epoch : Epoch}

/-- An accepted write of the in-memory store. -/
theorem memory_write_accepted (hle : state.maxEpoch ≤ epoch) :
  state.perform (.write dataPoints epoch)
    = (.ok (.revision (if dataPoints.any (isWritten state.entries) then state.revision + 1
          else state.revision)),
        { state with
          entries := (dataPoints.foldl (mergeOne (state.revision + 1)) (state.entries, false)).1
          revision := if dataPoints.any (isWritten state.entries) then state.revision + 1
            else state.revision
          maxEpoch := epoch })
  := by
  cases hmerge : dataPoints.foldl (mergeOne (state.revision + 1)) (state.entries, false) with
  | mk merged changed =>
      have hchanged := foldl_mergeOne_changed (state.revision + 1) state.entries dataPoints
      rw [hmerge] at hchanged
      rw [SessionState.perform, write_of_le hle hmerge, ← hchanged]
      rfl

/-- The script a `write` runs in a state that corresponds. -/
theorem write_script (epoch : Epoch) (hwire : wire.FaithfulOn inPlay) (h : Stored wire inPlay entries session)
    (hmem : ∀ d ∈ dataPoints, inPlay d) :
  (StoreCall.write dataPoints epoch).script? wire session
    = some (RedisSession.writeScript
        ((dataPoints.filter (isWritten entries)).map (tripleFor wire entries)))
  := by
  rw [StoreCall.script?, writeTriples_eq hwire h hmem]
  rfl

/-- An accepted write of the Redis store. -/
theorem redis_write_accepted (hwire : wire.FaithfulOn inPlay)
    (h : Corresponds wire inPlay state session) (hmem : ∀ d ∈ dataPoints, inPlay d)
    (hle : state.maxEpoch ≤ epoch) (sessionId : SessionId) :
  (session.perform wire sessionId none (.write dataPoints epoch)).2
    = if dataPoints.any (isWritten state.entries) then
        ((dataPoints.filter (isWritten state.entries)).map (tripleFor wire state.entries)).foldl
          (RedisSession.storeTriple (state.revision + 1))
          { session with epoch := epoch, rev := state.revision + 1 }
      else { session with epoch := epoch }
  := by
  have hepoch : session.epoch ≤ epoch := by
    rw [h.epoch]
    apply hle
  have hscript := write_script epoch hwire h.stored hmem
  rw [RedisSession.perform_eq_runScript rfl hscript (fun _ => by decide)]
  cases hany : dataPoints.any (isWritten state.entries) with
  | false =>
      have hfilter : dataPoints.filter (isWritten state.entries) = [] := by
        simpa using hany
      rw [hfilter, List.map_nil, RedisSession.runScript_accepted
        (RedisSession.writeScript_nil hepoch) (Corresponds.natCast_ne_neg_one _) (by decide)]
      rfl
  | true =>
      have hempty : ((dataPoints.filter (isWritten state.entries)).map
          (tripleFor wire state.entries)).isEmpty = false := by
        simpa using hany
      rw [RedisSession.runScript_accepted (RedisSession.writeScript_of_le hepoch hempty)
        (Corresponds.natCast_ne_neg_one _) (by decide), h.rev]
      rfl

/-- A batch that writes nothing is the same step in both stores, and so is one whose last
triples are what the merge makes. -/
theorem accepts_write (hwire : wire.FaithfulOn inPlay)
    (h : Corresponds wire inPlay state session) (hmem : ∀ d ∈ dataPoints, inPlay d)
    (hle : state.maxEpoch ≤ epoch) (hlast : LastWins state.entries dataPoints) :
  Corresponds.Accepts wire inPlay state session (.write dataPoints epoch) epoch
  := by
  have hepoch : session.epoch ≤ epoch := by
    rw [h.epoch]
    apply hle
  have hscript := write_script epoch hwire h.stored hmem
  have hmemory : state.perform (.write dataPoints epoch) = _ := memory_write_accepted hle
  cases hany : dataPoints.any (isWritten state.entries) with
  | false =>
      have hfilter : dataPoints.filter (isWritten state.entries) = [] := by
        simpa using hany
      have hsame : dataPoints.foldl (mergeOne (state.revision + 1)) (state.entries, false)
          = (state.entries, false) := by
        apply foldl_mergeOne_unchanged
        rw [foldl_mergeOne_changed, hany]
      rw [hfilter, List.map_nil] at hscript
      rw [hany, hsame] at hmemory
      apply Corresponds.Accepts.intro hscript (RedisSession.writeScript_nil hepoch)
        (Corresponds.natCast_ne_neg_one _)
      · rw [hmemory, h.rev]
        rfl
      · rfl
      · apply h.accept epoch
  | true =>
      have hempty : ((dataPoints.filter (isWritten state.entries)).map
          (tripleFor wire state.entries)).isEmpty = false := by
        simpa using hany
      have hrun := RedisSession.writeScript_of_le hepoch hempty
      rw [h.rev] at hrun
      rw [hany] at hmemory
      apply Corresponds.Accepts.intro hscript hrun (Corresponds.natCast_ne_neg_one _)
      · rw [hmemory]
        rfl
      · rfl
      · apply h.store
        · apply foldl_mergeOne_wellFormed
          apply Entries.WellFormed.mono h.wellFormed (Nat.le_succ _)
        · apply (stored_write_iff hwire (h.stored_setRev epoch _) hmem).mpr hlast

/-- A batch written in both stores agrees exactly if its epoch is stale, or if of the
observations it writes for an identity the last is the latest and, where the identity is new,
the first one seen again. -/
theorem writeAgrees_iff (hwire : wire.FaithfulOn inPlay)
    (h : Corresponds wire inPlay state session) (sessionId : SessionId)
    (hmem : ∀ d ∈ dataPoints, inPlay d) (epoch : Epoch) :
  WriteAgrees wire inPlay state session sessionId dataPoints epoch
    ↔ epoch < state.maxEpoch ∨ LastWins state.entries dataPoints
  := by
  have hscript := write_script epoch hwire h.stored hmem
  constructor
  · intro hagrees
    rcases Nat.lt_or_ge epoch state.maxEpoch with hlt | hle
    · left
      apply hlt
    · right
      have hstored := hagrees.next.stored
      rw [memory_write_accepted hle, redis_write_accepted hwire h hmem hle] at hstored
      cases hany : dataPoints.any (isWritten state.entries) with
      | false =>
          intro key w hw
          obtain ⟨hd, hwritten, -⟩ := isWritten_of_mem (List.mem_of_getLast? hw)
          have hnot := List.any_eq_false.mp hany w hd
          exact absurd hwritten hnot
      | true =>
          rw [hany, if_pos rfl] at hstored
          apply (stored_write_iff hwire (h.stored_setRev epoch _) hmem).mp hstored
  · intro hcondition
    have hstep : Corresponds.SameStep wire inPlay sessionId state session
        (.write dataPoints epoch) := by
      apply h.guarded_same sessionId rfl ⟨_, hscript⟩
      intro hle
      apply accepts_write hwire h hmem hle (hcondition.resolve_left (Nat.not_lt.mpr hle))
    constructor
    · apply hstep.outcome
    · apply hstep.next
    · intro since
      apply hstep.next.changeSetSince_eq hwire
    · intro key entry hentry
      rcases Nat.lt_or_ge epoch state.maxEpoch with hlt | hle
      · rw [SessionState.perform_of_lt rfl hlt]
        exact ⟨entry, hentry, le_refl _⟩
      · rw [memory_write_accepted hle]
        apply merge_monotone hentry
    · intro identity raw d hraw hparse
      rcases Nat.lt_or_ge epoch state.maxEpoch with hlt | hle
      · have hrejected : state.perform (.write dataPoints epoch) = _ :=
          SessionState.perform_of_lt rfl hlt
        rw [(hstep.rejected _ (congrArg Prod.fst hrejected)).2]
        exact ⟨raw, d, hraw, hparse, le_refl _⟩
      · rw [redis_write_accepted hwire h hmem hle]
        split
        · apply script_monotone hwire (h.stored_setRev epoch _) hmem hraw hparse
        · exact ⟨raw, d, hraw, hparse, le_refl _⟩

/-- Two sightings of a new note, the later one as the first seen again: both stores agree. -/
theorem writeAgrees_iff_seen_again :
  WriteAgrees noteWire IsNote .initial .initial "s" [sighting 1, (sighting 1).reobserved 2] 1
    ↔ 1 < SessionState.initial.maxEpoch
      ∨ LastWins SessionState.initial.entries [sighting 1, (sighting 1).reobserved 2]
  := by
  apply writeAgrees_iff noteWire_faithful corresponds_initial
  simp [IsNote]

/-- A new note seen at two and then at one, in one batch: the Redis store keeps the triple of the
older observation, the in-memory store the newer one. -/
theorem older_sighting_last_disagrees :
  noteWire.FaithfulOn IsNote ∧ Corresponds noteWire IsNote .initial .initial
    ∧ (∀ d ∈ [sighting 2, sighting 1], IsNote d)
    ∧ ¬WriteAgrees noteWire IsNote .initial .initial "s" [sighting 2, sighting 1] 1
  := by
  refine ⟨noteWire_faithful, corresponds_initial, by simp [IsNote], ?_⟩
  intro hagrees
  have hdp := hagrees.next.stored.dp (.inl rfl : IsNote (sighting 1))
  revert hdp
  decide

end

end Orcastork
