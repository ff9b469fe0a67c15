import Orcastork.DataPoints.Base
import Orcastork.Library.Upsert

/-!
# The in-memory DataPoint archive

`InMemoryDataPointArchive` keeps, for every session, a buffer of observations and a map they
are folded into by type and value hash; the operations are given on the session they are
called for. Sealing a value and hashing it are a parameter: the cipher is injected.

A read folds the buffer over the committed map without flushing it, so a flush is not seen
by a reader.
-/

namespace Orcastork

/-- One archived observation. -/
structure ArchivedDataPoint where
  type : DataPointType
  valueHash : String
  value : Value
  retrievedBy : OperatorId
  firstRetrieved : Timestamp
  lastRetrieved : Timestamp
  isPii : Bool
  epoch : Epoch

/-- The key an observation is folded under. -/
def ArchivedDataPoint.key (entry : ArchivedDataPoint) : DataPointType × String :=
  (entry.type, entry.valueHash)

/-- The archived observations of a session, by key. -/
abbrev ArchivedEntries := Dict (DataPointType × String) ArchivedDataPoint

/-- The sealing of an entry with the value hash derived from its plaintext. -/
abbrev Sealer := ArchivedDataPoint → ArchivedDataPoint

/-- What the archive keeps for one session. -/
structure ArchiveState where
  buffer : List ArchivedDataPoint
  committed : ArchivedEntries
  maxEpoch : Epoch

namespace ArchiveState

/-- The archive of a session nothing was archived of. -/
def initial : ArchiveState := ⟨[], .empty, 0⟩

/-- `_fold_in`: a first observation inserted; a later one advances the last retrieval and the
epoch. -/
def foldIn (folded : ArchivedEntries) (entry : ArchivedDataPoint) : ArchivedEntries :=
  match folded.get? entry.key with
  | none => folded.set entry.key entry
  | some existing =>
    folded.set entry.key
      { existing with
        lastRetrieved := max existing.lastRetrieved entry.lastRetrieved
        epoch := max existing.epoch entry.epoch }

/-- `archive`: an observation sealed and buffered, unless its epoch is below the highest
accepted one. -/
def archive (sealer : Sealer) (state : ArchiveState) (entry : ArchivedDataPoint) :
    Except OrchestrationError ArchiveState :=
  if entry.epoch < state.maxEpoch then
    .error (.staleEpoch s!"epoch {entry.epoch} is stale (current {state.maxEpoch})")
  else
    .ok { state with maxEpoch := entry.epoch, buffer := state.buffer ++ [sealer entry] }

/-- `archive_many`: the observations archived one after another, up to the first that is
rejected. -/
def archiveMany (sealer : Sealer) :
    ArchiveState → List ArchivedDataPoint → Except OrchestrationError Unit × ArchiveState
  | state, [] => (.ok (), state)
  | state, entry :: entries =>
    match state.archive sealer entry with
    | .error error => (.error error, state)
    | .ok state => archiveMany sealer state entries

-- The equations are made here once for the proofs that rewrite with them.
attribute [grind =] archive archiveMany

/-- What a read folds together: the buffer over the committed entries. -/
def folded (state : ArchiveState) : ArchivedEntries :=
  state.buffer.foldl foldIn state.committed

/-- `flush`: the buffer folded into the committed entries, and how many it were. -/
def flush (state : ArchiveState) : ℕ × ArchiveState :=
  (state.buffer.length, { state with buffer := [], committed := state.folded })

/-- `_live`: whether an entry is within the retention, if there is one. -/
def live (retention : Option Timestamp) (now : Timestamp) (entry : ArchivedDataPoint) : Bool :=
  match retention with
  | none => true
  | some retention => decide (now - entry.lastRetrieved ≤ retention)

/-- `read`: the buffer folded over the committed entries, those within the retention
unsealed. -/
def read (unsealer : ArchivedDataPoint → ArchivedDataPoint) (retention : Option Timestamp)
    (now : Timestamp) (state : ArchiveState) : List ArchivedDataPoint :=
  (state.folded.values.filter (live retention now)).map unsealer

/-- `buffered_count`. -/
def bufferedCount (state : ArchiveState) : ℕ := state.buffer.length

/-- A flush returns how many entries were buffered and leaves none, and no read sees it. -/
theorem flush_spec (state : ArchiveState) :
  state.flush.1 = state.bufferedCount
    ∧ state.flush.2.bufferedCount = 0
    ∧ ∀ unsealer retention now,
        state.flush.2.read unsealer retention now = state.read unsealer retention now
  := ⟨rfl, rfl, fun _ _ _ => rfl⟩

/-- A batch of one epoch below the highest accepted one changes nothing. -/
theorem archiveMany_of_lt {sealer : Sealer} {state : ArchiveState}
    {entries : List ArchivedDataPoint} {epoch : Epoch} (h : epoch < state.maxEpoch)
    (hentries : ∀ entry ∈ entries, entry.epoch = epoch) :
  (archiveMany sealer state entries).2 = state
  := by
  cases entries with
  | nil => rfl
  | cons entry entries =>
      have hepoch : entry.epoch < state.maxEpoch := by
        rw [hentries entry List.mem_cons_self]
        exact h
      rw [archiveMany, archive, if_pos hepoch]

/-- A batch of one epoch that is not below the highest accepted one is buffered whole. -/
theorem archiveMany_of_le {sealer : Sealer} {state : ArchiveState}
    {entries : List ArchivedDataPoint} {epoch : Epoch} (hne : entries ≠ [])
    (hentries : ∀ entry ∈ entries, entry.epoch = epoch) (h : state.maxEpoch ≤ epoch) :
  archiveMany sealer state entries
    = (.ok (), ⟨state.buffer ++ entries.map sealer, state.committed, epoch⟩)
  := by
  induction entries generalizing state with
  | nil => exact absurd rfl hne
  | cons entry entries ih =>
      have hepoch := hentries entry List.mem_cons_self
      have hle : ¬entry.epoch < state.maxEpoch := by
        rw [hepoch]
        exact Nat.not_lt.mpr h
      rw [archiveMany, archive, if_neg hle]
      cases entries with
      | nil => rw [hepoch]; rfl
      | cons next entries =>
          simp only
          rw [ih (List.cons_ne_nil next entries)
            (fun other hother => hentries other (List.mem_cons_of_mem entry hother))
            (Nat.le_of_eq hepoch)]
          simp

/-- A batch is rejected by fencing only. -/
theorem isStaleEpoch_archiveMany {sealer : Sealer} {state : ArchiveState}
    {entries : List ArchivedDataPoint} {error : OrchestrationError}
    (h : (archiveMany sealer state entries).1 = .error error) :
  error.isStaleEpoch = true
  := by
  induction entries generalizing state with
  | nil => cases h
  | cons entry entries ih =>
      rw [archiveMany, archive] at h
      rcases Nat.lt_or_ge entry.epoch state.maxEpoch with hlt | hle
      · rw [if_pos hlt] at h
        cases h
        rfl
      · rw [if_neg (Nat.not_lt.mpr hle)] at h
        exact ih h

/-- No batch lowers the highest accepted epoch. -/
theorem maxEpoch_archiveMany (sealer : Sealer) (state : ArchiveState)
    (entries : List ArchivedDataPoint) :
  state.maxEpoch ≤ (archiveMany sealer state entries).2.maxEpoch
  := by
  induction entries generalizing state with
  | nil => rfl
  | cons entry entries ih =>
      rw [archiveMany, archive]
      rcases Nat.lt_or_ge entry.epoch state.maxEpoch with hlt | hle
      · rw [if_pos hlt]
      · rw [if_neg (Nat.not_lt.mpr hle)]
        apply le_trans hle
        exact ih ⟨state.buffer ++ [sealer entry], state.committed, entry.epoch⟩

/-- Two archives read alike when a reader sees the same entries and the same epochs are
accepted. -/
def ReadsAlike (state other : ArchiveState) : Prop :=
  state.folded = other.folded ∧ state.maxEpoch = other.maxEpoch

/-- Archiving a batch keeps archives that read alike so. -/
theorem readsAlike_archiveMany (sealer : Sealer) {state other : ArchiveState}
    (h : ReadsAlike state other) (entries : List ArchivedDataPoint) :
  ReadsAlike (archiveMany sealer state entries).2 (archiveMany sealer other entries).2
  := by
  induction entries generalizing state other with
  | nil => exact h
  | cons entry entries ih =>
      rw [archiveMany, archiveMany, archive, archive, ← h.2]
      rcases Nat.lt_or_ge entry.epoch state.maxEpoch with hlt | hle
      · rw [if_pos hlt, if_pos hlt]
        exact h
      · rw [if_neg (Nat.not_lt.mpr hle), if_neg (Nat.not_lt.mpr hle)]
        have hstep : ReadsAlike
            ⟨state.buffer ++ [sealer entry], state.committed, entry.epoch⟩
            ⟨other.buffer ++ [sealer entry], other.committed, entry.epoch⟩ := by
          have hfolded := h.1
          constructor
          · simp only [folded, List.foldl_append, List.foldl_cons, List.foldl_nil] at hfolded ⊢
            rw [hfolded]
          · rfl
        exact ih hstep

/-! ### The fold as a keyed upsert -/

/-- A first observation of a key supplies every field; a later one advances the last
retrieval and the epoch. -/
def upsert : Upsert (DataPointType × String) ArchivedDataPoint where
  key := ArchivedDataPoint.key
  join existing entry :=
    { existing with
      lastRetrieved := max existing.lastRetrieved entry.lastRetrieved
      epoch := max existing.epoch entry.epoch }
  key_join _ _ := rfl

/-- Entries lie at their key. -/
def Keyed (folded : ArchivedEntries) : Prop :=
  ∀ key entry, folded.get? key = some entry → entry.key = key

theorem foldIn_eq_set (folded : ArchivedEntries) (entry : ArchivedDataPoint) :
  foldIn folded entry = folded.set entry.key (upsert.absorb (folded.get? entry.key) entry)
  := by
  rw [foldIn]
  split
  · rename_i hget
    rw [hget]
    rfl
  · rename_i existing hget
    rw [hget]
    rfl

theorem keyed_foldIn {folded : ArchivedEntries} (h : Keyed folded)
    (entry : ArchivedDataPoint) :
  Keyed (foldIn folded entry)
  := by
  intro key entry' hget
  rw [foldIn_eq_set, Dict.get?_set] at hget
  split at hget
  · rename_i hkey
    rw [← hkey]
    cases hold : folded.get? entry.key with
    | none =>
        rw [hold, Option.some.injEq] at hget
        rw [← hget]
        rfl
    | some existing =>
        rw [hold, Option.some.injEq] at hget
        rw [← hget]
        exact h entry.key existing hold
  · exact h key entry' hget

/-- Folding observations in puts them into the entries. -/
theorem values_foldl_foldIn {folded : ArchivedEntries} (h : Keyed folded)
    (entries : List ArchivedDataPoint) :
  (entries.foldl foldIn folded).values = upsert.putAll folded.values entries
    ∧ Keyed (entries.foldl foldIn folded)
  := by
  induction entries generalizing folded with
  | nil => exact ⟨rfl, h⟩
  | cons entry entries ih =>
      obtain ⟨hvalues, hkeyed⟩ := ih (keyed_foldIn h entry)
      constructor
      · rw [List.foldl_cons, hvalues, Upsert.putAll_cons, foldIn_eq_set]
        congr 1
        exact upsert.values_set h entry
      · exact hkeyed

/-- A batch that is accepted is buffered whole, sealed. -/
theorem archiveMany_eq_ok {sealer : Sealer} {state state' : ArchiveState}
    {entries : List ArchivedDataPoint}
    (h : archiveMany sealer state entries = (.ok (), state')) :
  state'.buffer = state.buffer ++ entries.map sealer ∧ state'.committed = state.committed
  := by
  induction entries generalizing state with
  | nil =>
      cases h
      simp
  | cons entry entries ih =>
      rw [archiveMany, archive] at h
      split at h
      · cases h
      · rename_i next hnext
        split at hnext
        · cases hnext
        · cases hnext
          obtain ⟨hbuffer, hcommitted⟩ := ih h
          rw [hbuffer, hcommitted]
          simp

/-- A reader sees an accepted batch put into what it saw before. -/
theorem values_folded_archiveMany {sealer : Sealer} {state state' : ArchiveState}
    {entries : List ArchivedDataPoint} (hkeyed : Keyed state.folded)
    (h : archiveMany sealer state entries = (.ok (), state')) :
  state'.folded.values = upsert.putAll state.folded.values (entries.map sealer)
    ∧ Keyed state'.folded
  := by
  obtain ⟨hbuffer, hcommitted⟩ := archiveMany_eq_ok h
  have hfolded : state'.folded = (entries.map sealer).foldl foldIn state.folded := by
    rw [folded, hbuffer, hcommitted, List.foldl_append]
    rfl
  rw [hfolded]
  exact values_foldl_foldIn hkeyed (entries.map sealer)

end ArchiveState

end Orcastork
