import Orcastork.Archive.Sealing
import Orcastork.Library.Paging
import Orcastork.Library.TransitionSystem
import Mathlib.Data.Prod.Lex
import Mathlib.Data.String.Basic

/-!
# The Mongo DataPoint archive

`MongoDataPointArchive` keeps three collections: a buffer of observations in sequence order,
the committed rows by a composite `_id`, and for every session its last sequence number and
its highest epoch. `archive_many` numbers and buffers a batch; `flush` upserts the buffer
into the committed rows a page at a time and deletes what it has committed; `read` folds
the buffer over the committed rows, both read in pages.

The collections hold the rows of all sessions; the operations are given for the session of
the sealing. One operation on one document is atomic, so a flush is a machine
(`ArchiveProcess.step`) whose steps are a query, one upsert of a bulk write, or one deletion
of a `delete_many`; it may stop after any of them. A bulk write is ordered, a `delete_many`
is not. A document that is a JSON dump is read back as it was.
-/

namespace Orcastork

/-- `_PAGE_SIZE`. -/
def pageSize : ℕ := 500

/-- `_to_stored_resolution`: a time down to the millisecond. -/
def toStoredResolution (moment : Timestamp) : Timestamp := moment - moment % 1000

/-- A document of the buffer. A sequence number is given to one row of a session only. -/
structure BufferRow where
  sessionId : SessionId
  sequence : ℕ
  entry : ArchivedDataPoint

/-- A committed document, without its `_id`. -/
structure CommittedRow where
  sessionId : SessionId
  entry : ArchivedDataPoint

/-- The counters of a session. -/
structure ArchiveMeta where
  sequence : ℕ
  maxEpoch : Epoch
  deriving DecidableEq, Repr

/-- The collections of the archive. -/
structure MongoArchive where
  buffer : List BufferRow
  /-- The committed documents, by `_id`. -/
  committed : Dict String CommittedRow
  metas : Dict SessionId ArchiveMeta

/-- The `_id` of a committed row: its session and its key, joined by NULs. -/
def documentId (sessionId : SessionId) (key : DataPointType × String) : String :=
  sessionId ++ "\x00" ++ key.1 ++ "\x00" ++ key.2

/-- What a read sorts by: the first retrieval, then the key. -/
def ArchivedDataPoint.sortKey (entry : ArchivedDataPoint) : Timestamp ×ₗ String ×ₗ String :=
  toLex (entry.firstRetrieved, toLex (entry.type, entry.valueHash))

namespace Sealing

/-- The sealing with `NullCipher`. -/
def passthrough (sealing : Sealing) : Sealing :=
  { sealing with
    cipher :=
      { encrypt := fun plaintext => plaintext
        decrypt := fun ciphertext => ciphertext
        mac := sealing.sha256 } }

/-- `_cipher_for`: the cipher of the namespace, or `NullCipher` where it cannot be resolved. -/
def resolved (sealing : Sealing) (available : Bool) : Sealing :=
  if available then sealing else sealing.passthrough

end Sealing

namespace MongoArchive

/-! ### Archiving -/

/-- The range of sequence numbers a batch gets, by its last: the counters of the session are
moved in one conditional update, which fails for an epoch below the highest. -/
def allocate (archive : MongoArchive) (sessionId : SessionId) (epoch : Epoch) (count : ℕ) :
    Option (ℕ × MongoArchive) :=
  match archive.metas.get? sessionId with
  | none =>
    some (count, { archive with metas := archive.metas.set sessionId ⟨count, epoch⟩ })
  | some counters =>
    if counters.maxEpoch ≤ epoch then
      let last := counters.sequence + count
      some (last,
        { archive with
          metas := archive.metas.set sessionId ⟨last, max counters.maxEpoch epoch⟩ })
    else
      none

/-- The entry of a buffered document: keyed by the plaintext, sealed, and down to the
resolution of a stored date. -/
def stored (sealing : Sealing) (entry : ArchivedDataPoint) : ArchivedDataPoint :=
  { sealing.sealer entry with
    firstRetrieved := toStoredResolution entry.firstRetrieved
    lastRetrieved := toStoredResolution entry.lastRetrieved }

/-- The documents of a batch, numbered from `first` on. -/
def documents (sealing : Sealing) (first : ℕ) : List ArchivedDataPoint → List BufferRow
  | [] => []
  | entry :: entries =>
    ⟨sealing.sessionId, first, stored sealing entry⟩ :: documents sealing (first + 1) entries

/-- `archive_many`: a batch is refused whole if it has PII and no cipher, and rejected whole
if the epoch of its first entry is stale; otherwise it is buffered whole. -/
def archiveMany (sealing : Sealing) (available : Bool) (archive : MongoArchive) :
    List ArchivedDataPoint → Except OrchestrationError Unit × MongoArchive
  | [] => (.ok (), archive)
  | first :: rest =>
    let entries := first :: rest
    match entries.find? (fun entry => !available && entry.isPii) with
    | some entry =>
      (.error (.unprotectedPii
        ("refusing to archive PII " ++ String.ofList (sealing.literals.reprStr entry.type)
          ++ " for " ++ sealing.sessionId ++ " without a cipher")),
        archive)
    | none =>
      match archive.allocate sealing.sessionId first.epoch entries.length with
      | none =>
        (.error (.staleEpoch s!"epoch {first.epoch} is stale for session {sealing.sessionId}"),
          archive)
      | some (last, archive) =>
        let rows := documents (sealing.resolved available) (last - entries.length + 1) entries
        (.ok (), { archive with buffer := archive.buffer ++ rows })

/-! ### Flushing -/

/-- One upsert of a bulk write: `$setOnInsert` fixes the fields of a new document, `$max`
advances the last retrieval and the epoch of a known one. -/
def upsertRow (sessionId : SessionId) (committed : Dict String CommittedRow)
    (entry : ArchivedDataPoint) : Dict String CommittedRow :=
  let id := documentId sessionId entry.key
  match committed.get? id with
  | none => committed.set id ⟨sessionId, entry⟩
  | some row =>
    committed.set id
      { row with
        entry :=
          { row.entry with
            lastRetrieved := max row.entry.lastRetrieved entry.lastRetrieved
            epoch := max row.entry.epoch entry.epoch } }

/-- A row of the buffer as the query of its session's rows orders it. -/
def sequenceKey (row : BufferRow) : ℤ := row.sequence

/-- The buffered rows of a session. -/
def rowsOf (archive : MongoArchive) (sessionId : SessionId) : List BufferRow :=
  archive.buffer.filter (fun row => row.sessionId = sessionId)

/-- A page of the buffered rows of a session, past a sequence number. -/
def fetchPage (archive : MongoArchive) (sessionId : SessionId) (after : ℤ) : List BufferRow :=
  Paging.fetch sequenceKey pageSize (archive.rowsOf sessionId) after

/-- Whether a row is the document of another: the same number of the same session. -/
def sameDocument (row other : BufferRow) : Bool :=
  row.sessionId = other.sessionId && row.sequence = other.sequence

/-- The buffer without the documents of a page. -/
def deleteRows (buffer page : List BufferRow) : List BufferRow :=
  buffer.filter (fun row => !page.any (sameDocument row))

/-- The loop of `flush` from a sequence number on: a page is committed, deleted, and passed,
until there is none. -/
def flushFrom (sessionId : SessionId) (after : ℤ) (flushed : ℕ) (archive : MongoArchive) :
    ℕ × MongoArchive :=
  let page := archive.fetchPage sessionId after
  match _hlast : page.getLast? with
  | none => (flushed, archive)
  | some last =>
    flushFrom sessionId last.sequence (flushed + page.length)
      { archive with
        committed := (page.map BufferRow.entry).foldl (upsertRow sessionId) archive.committed
        buffer := deleteRows archive.buffer page }
termination_by (Paging.past sequenceKey (archive.rowsOf sessionId) after).length
decreasing_by
  apply Nat.lt_of_le_of_lt _ (Paging.length_past_lt sequenceKey _hlast)
  apply List.Sublist.length_le
  apply List.Sublist.filter
  apply List.Sublist.filter
  exact List.filter_sublist

/-- `flush`: every buffered row of the session committed, and how many they were. -/
def flush (sessionId : SessionId) (archive : MongoArchive) : ℕ × MongoArchive :=
  archive.flushFrom sessionId (-1) 0

/-! ### Reading -/

/-- `_fold_in`, the same as that of the in-memory archive. -/
def foldIn (folded : ArchivedEntries) (entry : ArchivedDataPoint) : ArchivedEntries :=
  ArchiveState.foldIn folded entry

/-- The committed documents of a session, ranged over their `_id`. -/
def committedOf (archive : MongoArchive) (sessionId : SessionId) :
    List (String × CommittedRow) :=
  Paging.scan Prod.fst pageSize
    (archive.committed.items.filter (fun item => item.1 < sessionId ++ "\x01"))
    (sessionId ++ "\x00")

/-- The buffered documents of a session, by sequence. -/
def bufferedOf (archive : MongoArchive) (sessionId : SessionId) : List BufferRow :=
  Paging.scan sequenceKey pageSize (archive.rowsOf sessionId) (-1)

/-- What a read folds together, page after page. -/
def folded (archive : MongoArchive) (sessionId : SessionId) : ArchivedEntries :=
  ((archive.bufferedOf sessionId).map BufferRow.entry).foldl foldIn
    (((archive.committedOf sessionId).map (fun item => item.2.entry)).foldl foldIn .empty)

/-- `read`: the folded entries by first retrieval and key, unsealed. PII is not read without
a cipher. -/
def read (sealing : Sealing) (available : Bool) (archive : MongoArchive) :
    Except OrchestrationError (List ArchivedDataPoint) :=
  let entries := Paging.inOrder ArchivedDataPoint.sortKey
    (archive.folded sealing.sessionId).values
  if !available && entries.any ArchivedDataPoint.isPii then
    .error (.piiKeyUnavailable
      s!"cannot unseal PII for session {sealing.sessionId}: namespace key unavailable")
  else
    .ok (entries.map (sealing.resolved available).unsealEntry)

/-- `buffered_count`. -/
def bufferedCount (archive : MongoArchive) (sessionId : SessionId) : ℕ :=
  (archive.rowsOf sessionId).length

end MongoArchive

/-! ### A flush step by step -/

/-- Where a flush is: not under way, about to fetch the page past a sequence number, or with
a page of which some operations are left to write. With none left, the page is being
deleted. -/
inductive FlushPoint where
  | idle
  | fetching (after : ℤ)
  | flushing (page remaining : List BufferRow)

/-- The archive, and the flush that is under way. -/
structure ArchiveProcess where
  archive : MongoArchive
  point : FlushPoint

/-- What happens to the archive of a session: a batch is archived, a flush starts, takes a
step, or dies. -/
inductive ArchiveAction where
  | archive (available : Bool) (entries : List ArchivedDataPoint)
  | start
  | fetch
  | write
  | delete (row : BufferRow)
  | deleted
  | die

/-- Whether an action is one of the flush. -/
def ArchiveAction.isFlush : ArchiveAction → Bool
  | .archive _ _ => false
  | _ => true

namespace ArchiveProcess

/-- One action. -/
def step (sealing : Sealing) (process : ArchiveProcess) : ArchiveAction → Option ArchiveProcess
  | .archive available entries =>
    some { process with
      archive := (process.archive.archiveMany sealing available entries).2 }
  | .start =>
    match process.point with
    | .idle => some { process with point := .fetching (-1) }
    | _ => none
  | .fetch =>
    match process.point with
    | .fetching after =>
      let page := process.archive.fetchPage sealing.sessionId after
      if page.isEmpty then
        some { process with point := .idle }
      else
        some { process with point := .flushing page page }
    | _ => none
  | .write =>
    match process.point with
    | .flushing page (row :: remaining) =>
      some {
        archive :=
          { process.archive with
            committed :=
              MongoArchive.upsertRow sealing.sessionId process.archive.committed row.entry }
        point := .flushing page remaining }
    | _ => none
  | .delete row =>
    match process.point with
    | .flushing page [] =>
      if page.any (MongoArchive.sameDocument row) then
        some { process with
          archive :=
            { process.archive with
              buffer := MongoArchive.deleteRows process.archive.buffer [row] } }
      else
        none
    | _ => none
  | .deleted =>
    match process.point with
    | .flushing page [] =>
      if process.archive.buffer.all (fun row => !page.any (MongoArchive.sameDocument row)) then
        (page.getLast?).map (fun last =>
          { process with point := .fetching last.sequence })
      else
        none
    | _ => none
  | .die => some { process with point := .idle }

end ArchiveProcess

end Orcastork
