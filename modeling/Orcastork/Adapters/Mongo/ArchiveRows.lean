import Orcastork.Adapters.Mongo.Archive
import Orcastork.Library.Delimited

/-!
# The rows of a session

The committed documents of all sessions are in one collection, and a session finds its own
by the range of its `_id`s. No session id and no value hash contains the NUL that joins an
`_id`, so an `_id` determines its session and its key, and the range holds the rows of the
session and no others (`mem_committedOf`).

What a read folds is given key by key: the committed row of the key, joined with the
buffered observations of the key in sequence order (`row_folded`).
-/

namespace Orcastork

open MongoArchive

/-! ### Document ids -/

/-- A text without the delimiter of an `_id`. -/
def Undelimited (text : String) : Prop := '\x00' ∉ text.toList

theorem toList_documentId (sessionId : SessionId) (key : DataPointType × String) :
  (documentId sessionId key).toList
    = sessionId.toList ++ '\x00' :: (key.1.toList ++ '\x00' :: key.2.toList)
  := by
  simp [documentId, String.toList_append]

/-- An `_id` determines its session and its key. -/
theorem documentId_inj {sessionId sessionId' : SessionId} {key key' : DataPointType × String}
    (hsession : Undelimited sessionId) (hsession' : Undelimited sessionId')
    (hkey : Undelimited key.2) (hkey' : Undelimited key'.2)
    (h : documentId sessionId key = documentId sessionId' key') :
  sessionId = sessionId' ∧ key = key'
  := by
  have hlist := congrArg String.toList h
  rw [toList_documentId, toList_documentId] at hlist
  obtain ⟨hid, hrest⟩ := Delimited.append_cons_inj hsession hsession' hlist
  obtain ⟨htype, hhash⟩ := Delimited.append_cons_inj_right hkey hkey' hrest
  constructor
  · exact String.toList_inj.mp hid
  · apply Prod.ext
    · exact String.toList_inj.mp htype
    · exact String.toList_inj.mp hhash

theorem nul_covBy :
  '\x00' ⋖ '\x01'
  := by
  constructor
  · decide
  · intro c hlow hhigh
    rw [Char.lt_def] at hlow hhigh
    have hlow' := UInt32.lt_iff_toNat_lt.mp hlow
    have hhigh' := UInt32.lt_iff_toNat_lt.mp hhigh
    have hnul : ('\x00' : Char).val.toNat = 0 := rfl
    have hone : ('\x01' : Char).val.toNat = 1 := rfl
    omega

/-- The range of a session holds the `_id`s of the session. -/
theorem documentId_between {sessionId sessionId' : SessionId} (h : Undelimited sessionId)
    (h' : Undelimited sessionId') (key : DataPointType × String) :
  (sessionId ++ "\x00" < documentId sessionId' key
      ∧ documentId sessionId' key < sessionId ++ "\x01")
    ↔ sessionId' = sessionId
  := by
  have hnul : (sessionId ++ "\x00").toList = sessionId.toList ++ ['\x00'] :=
    String.toList_append
  have hone : (sessionId ++ "\x01").toList = sessionId.toList ++ ['\x01'] :=
    String.toList_append
  rw [String.lt_iff_toList_lt, String.lt_iff_toList_lt, hnul, hone, toList_documentId,
    Delimited.between_iff nul_covBy]
  constructor
  · rintro ⟨rest, -, hrest⟩
    exact String.toList_inj.mp (Delimited.append_cons_inj h' h hrest).1
  · rintro rfl
    exact ⟨key.1.toList ++ '\x00' :: key.2.toList, by simp, rfl⟩

/-! ### The committed rows -/

/-- A committed row lies at the `_id` of its session and key, which are without NULs. -/
structure RowAt (id : String) (row : CommittedRow) : Prop where
  id_eq : id = documentId row.sessionId row.entry.key
  session : Undelimited row.sessionId
  hash : Undelimited row.entry.valueHash

/-- Every committed row lies at its `_id`. -/
def RowsKeyed (committed : Dict String CommittedRow) : Prop :=
  ∀ id row, committed.get? id = some row → RowAt id row

/-- The committed entry of a key. -/
def held (sessionId : SessionId) (committed : Dict String CommittedRow)
    (key : DataPointType × String) : Option ArchivedDataPoint :=
  (committed.get? (documentId sessionId key)).map CommittedRow.entry

section Upserts

variable {sessionId : SessionId} {committed : Dict String CommittedRow}

/-- An upsert sets the document of its key to what the observation makes of it. -/
theorem upsertRow_eq (hkeyed : RowsKeyed committed) (hsession : Undelimited sessionId)
    {entry : ArchivedDataPoint} (hentry : Undelimited entry.valueHash) :
  upsertRow sessionId committed entry
    = committed.set (documentId sessionId entry.key)
        ⟨sessionId,
          ArchiveState.upsert.absorb (held sessionId committed entry.key) entry⟩
  := by
  rw [upsertRow, held]
  cases hget : committed.get? (documentId sessionId entry.key) with
  | none => rfl
  | some row =>
      have hrow := hkeyed _ row hget
      have hsame : sessionId = row.sessionId :=
        (documentId_inj hsession hrow.session hentry hrow.hash hrow.id_eq).1
      simp only [Option.map_some, hsame]
      rfl

theorem rowsKeyed_upsertRow (hkeyed : RowsKeyed committed) (hsession : Undelimited sessionId)
    {entry : ArchivedDataPoint} (hentry : Undelimited entry.valueHash) :
  RowsKeyed (upsertRow sessionId committed entry)
  := by
  have hkey : (ArchiveState.upsert.absorb (held sessionId committed entry.key) entry).key
      = entry.key := by
    cases hheld : held sessionId committed entry.key with
    | none => rfl
    | some existing =>
        rw [held, Option.map_eq_some_iff] at hheld
        obtain ⟨row, hget, rfl⟩ := hheld
        have hrow := hkeyed _ row hget
        exact (documentId_inj hsession hrow.session hentry hrow.hash hrow.id_eq).2.symm
  intro id row hget
  rw [upsertRow_eq hkeyed hsession hentry, Dict.get?_set] at hget
  split at hget
  · rename_i hid
    cases hget
    constructor
    · rw [hkey, hid]
    · exact hsession
    · have hhash : (ArchiveState.upsert.absorb (held sessionId committed entry.key)
          entry).valueHash = entry.valueHash :=
        congrArg Prod.snd hkey
      simp only [hhash]
      exact hentry
  · exact hkeyed id row hget

/-- What an upsert makes of the entry of a key. -/
theorem held_upsertRow (hkeyed : RowsKeyed committed) (hsession : Undelimited sessionId)
    {entry : ArchivedDataPoint} (hentry : Undelimited entry.valueHash)
    {key : DataPointType × String} (hkey : Undelimited key.2) :
  held sessionId (upsertRow sessionId committed entry) key
    = if entry.key = key then
        some (ArchiveState.upsert.absorb (held sessionId committed key) entry)
      else held sessionId committed key
  := by
  rw [upsertRow_eq hkeyed hsession hentry, held, Dict.get?_set]
  by_cases h : entry.key = key
  · subst h
    rw [if_pos rfl, if_pos rfl]
    rfl
  · have hne : documentId sessionId entry.key ≠ documentId sessionId key := by
      intro heq
      exact h (documentId_inj hsession hsession hentry hkey heq).2
    rw [if_neg hne, if_neg h, held]

end Upserts

/-! ### What a read folds -/

namespace MongoArchive

variable {archive : MongoArchive} {sessionId : SessionId}

/-- The range of a session, read in pages, holds its rows in the order of their `_id`s. -/
theorem committedOf_eq (hkeyed : RowsKeyed archive.committed)
    (hsession : Undelimited sessionId) :
  archive.committedOf sessionId
    = Paging.inOrder Prod.fst
        (archive.committed.items.filter (fun item => item.2.sessionId = sessionId))
  := by
  have hnodup : ((archive.committed.items.filter
      (fun item => item.1 < sessionId ++ "\x01")).map Prod.fst).Nodup :=
    (List.filter_sublist.map Prod.fst).nodup archive.committed.nodup
  rw [committedOf, Paging.scan_eq Prod.fst (by decide) hnodup]
  congr 1
  rw [Paging.past, List.filter_filter]
  apply List.filter_congr
  intro item hitem
  obtain ⟨id, row⟩ := item
  have hrow := hkeyed id row (Dict.get?_eq_some_iff.mpr hitem)
  have hbetween := documentId_between hsession hrow.session row.entry.key
  rw [← hrow.id_eq] at hbetween
  rw [← Bool.decide_and]
  exact decide_eq_decide.mpr hbetween

theorem mem_committedOf (hkeyed : RowsKeyed archive.committed)
    (hsession : Undelimited sessionId) {item : String × CommittedRow} :
  item ∈ archive.committedOf sessionId
    ↔ archive.committed.get? item.1 = some item.2 ∧ item.2.sessionId = sessionId
  := by
  rw [committedOf_eq hkeyed hsession, Paging.mem_inOrder, List.mem_filter,
    Dict.get?_eq_some_iff]
  simp

/-- The committed entries that a read folds. -/
def committedEntries (archive : MongoArchive) (sessionId : SessionId) :
    List ArchivedDataPoint :=
  (archive.committedOf sessionId).map (fun item => item.2.entry)

theorem nodup_committedEntries (hkeyed : RowsKeyed archive.committed)
    (hsession : Undelimited sessionId) :
  ((archive.committedEntries sessionId).map ArchiveState.upsert.key).Nodup
  := by
  apply List.Nodup.of_map (documentId sessionId)
  have hids : ((archive.committedEntries sessionId).map ArchiveState.upsert.key).map
        (documentId sessionId)
      = (archive.committedOf sessionId).map Prod.fst := by
    rw [committedEntries, List.map_map, List.map_map]
    apply List.map_congr_left
    intro item hitem
    obtain ⟨hget, hown⟩ := (mem_committedOf hkeyed hsession).mp hitem
    rw [(hkeyed item.1 item.2 hget).id_eq, hown]
    rfl
  rw [hids, committedOf_eq hkeyed hsession]
  apply ((Paging.perm_inOrder Prod.fst _).map Prod.fst).nodup_iff.mpr
  exact (List.filter_sublist.map Prod.fst).nodup archive.committed.nodup

/-- A read finds the committed entry of a key. -/
theorem row_committedEntries (hkeyed : RowsKeyed archive.committed)
    (hsession : Undelimited sessionId) {key : DataPointType × String}
    (hkey : Undelimited key.2) :
  ArchiveState.upsert.row key (archive.committedEntries sessionId)
    = held sessionId archive.committed key
  := by
  cases hheld : held sessionId archive.committed key with
  | some entry =>
      rw [held, Option.map_eq_some_iff] at hheld
      obtain ⟨row, hget, rfl⟩ := hheld
      have hrow := hkeyed _ row hget
      obtain ⟨hown, hsame⟩ := documentId_inj hsession hrow.session hkey hrow.hash hrow.id_eq
      have hmem : row.entry ∈ archive.committedEntries sessionId := by
        apply List.mem_map.mpr
        use (documentId sessionId key, row)
        constructor
        · exact (mem_committedOf hkeyed hsession).mpr ⟨hget, hown.symm⟩
        · rfl
      have hfound := ArchiveState.upsert.row_of_mem (nodup_committedEntries hkeyed hsession) hmem
      rw [hsame]
      exact hfound
  | none =>
      rw [← Option.not_isSome_iff_eq_none, Upsert.row_isSome_iff]
      intro hmem
      obtain ⟨entry, hentry, rfl⟩ := List.mem_map.mp hmem
      obtain ⟨item, hitem, rfl⟩ := List.mem_map.mp hentry
      obtain ⟨hget, hown⟩ := (mem_committedOf hkeyed hsession).mp hitem
      rw [(hkeyed item.1 item.2 hget).id_eq, hown] at hget
      rw [held, Option.map_eq_none_iff] at hheld
      have hsome := hget.symm.trans hheld
      cases hsome

/-- The buffered rows of a session, read in pages, are all of them. -/
theorem bufferedOf_eq
    (hsorted : (archive.rowsOf sessionId).Pairwise (fun a b => a.sequence < b.sequence)) :
  archive.bufferedOf sessionId = archive.rowsOf sessionId
  := by
  have hrising : (archive.rowsOf sessionId).Pairwise
      (fun a b => sequenceKey a < sequenceKey b) :=
    hsorted.imp fun hab => Int.ofNat_lt.mpr hab
  have hnodup : ((archive.rowsOf sessionId).map sequenceKey).Nodup := by
    rw [List.Nodup, List.pairwise_map]
    exact hrising.imp fun hab => ne_of_lt hab
  have hall : Paging.past sequenceKey (archive.rowsOf sessionId) (-1)
      = archive.rowsOf sessionId := by
    apply List.filter_eq_self.mpr
    intro row _
    have hnonneg : (0 : ℤ) ≤ sequenceKey row := Int.natCast_nonneg row.sequence
    exact decide_eq_true (by omega)
  rw [bufferedOf, Paging.scan_eq sequenceKey (by decide) hnodup, hall,
    Paging.inOrder_of_pairwise sequenceKey hrising]

/-- The buffered entries of a session. -/
def bufferedEntries (archive : MongoArchive) (sessionId : SessionId) :
    List ArchivedDataPoint :=
  (archive.rowsOf sessionId).map BufferRow.entry

/-- A read folds the buffered entries over the committed ones, one for each key. -/
theorem values_folded (hkeyed : RowsKeyed archive.committed)
    (hsession : Undelimited sessionId)
    (hsorted : (archive.rowsOf sessionId).Pairwise (fun a b => a.sequence < b.sequence)) :
  (archive.folded sessionId).values
    = ArchiveState.upsert.putAll (archive.committedEntries sessionId)
        (archive.bufferedEntries sessionId)
  := by
  have hempty : ArchiveState.Keyed .empty := by
    intro key entry hget
    cases hget
  obtain ⟨hcommitted, hcommitted'⟩ :=
    ArchiveState.values_foldl_foldIn hempty (archive.committedEntries sessionId)
  obtain ⟨hbuffered, -⟩ := ArchiveState.values_foldl_foldIn hcommitted'
    (archive.bufferedEntries sessionId)
  have hall : ArchiveState.upsert.putAll [] (archive.committedEntries sessionId)
      = archive.committedEntries sessionId := by
    apply ArchiveState.upsert.putAll_of_nodup (nodup_committedEntries hkeyed hsession)
    intro entry _ hmem
    cases hmem
  rw [Dict.values_empty, hall] at hcommitted
  rw [hcommitted] at hbuffered
  rw [← hbuffered, folded, bufferedOf_eq hsorted]
  rfl

/-- What a read makes of a key: its committed entry with the buffered observations of the
key. -/
theorem row_folded (hkeyed : RowsKeyed archive.committed) (hsession : Undelimited sessionId)
    (hsorted : (archive.rowsOf sessionId).Pairwise (fun a b => a.sequence < b.sequence))
    {key : DataPointType × String} (hkey : Undelimited key.2) :
  ArchiveState.upsert.row key (archive.folded sessionId).values
    = ArchiveState.upsert.absorbAll (held sessionId archive.committed key)
        ((archive.bufferedEntries sessionId).filter (fun entry => entry.key = key))
  := by
  rw [values_folded hkeyed hsession hsorted, Upsert.row_putAll,
    row_committedEntries hkeyed hsession hkey]
  rfl

end MongoArchive

/-- Folding an observation in again changes nothing, in any order. -/
theorem ArchiveState.upsert_lawful :
  ArchiveState.upsert.Lawful
  := by
  constructor
  · intro entry
    simp [ArchiveState.upsert]
  · intro existing entry
    simp [ArchiveState.upsert]
  · intro existing entry entry'
    simp only [ArchiveState.upsert, max_right_comm]

end Orcastork
