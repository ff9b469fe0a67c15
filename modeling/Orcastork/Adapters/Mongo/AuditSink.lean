import Orcastork.Adapters.Memory.AuditSink
import Orcastork.Adapters.Mongo.Archive
import Orcastork.Library.Interleaving

/-!
# The Mongo audit sink

`MongoAuditSink` keeps the entries of all sessions in one collection, by an `_id` made of the
session and the sequence number, and for every session its last sequence number and its highest
epoch. `append_many` first allocates a range of sequence numbers for its batch, in one
conditional upsert that is fenced by the epoch, and then inserts the documents in order; `append`
is the batch of one.

A call is a thread of the sink: the allocation is one move and every inserted document another,
so that anything may come between them. A call may crash after any of them. `insert_many` writes
its documents one by one; a run where nothing comes between them is a run where it is atomic.
-/

namespace Orcastork

/-- An audited entry with the session it names. -/
structure SessionAuditEntry extends AuditLogEntry where
  sessionId : SessionId
  deriving DecidableEq, Repr

namespace MongoAudit

/-- A committed document. -/
structure AuditRow where
  sessionId : SessionId
  sequence : ℕ
  entry : SessionAuditEntry
  deriving DecidableEq, Repr

/-- The document of a session in `audit_meta`. -/
structure AuditMeta where
  sequence : ℕ
  maxEpoch : Option Epoch
  deriving DecidableEq, Repr

/-- The two collections of the sink. -/
structure Database where
  /-- The committed documents, by `_id`. -/
  committed : Dict String AuditRow
  metas : Dict SessionId AuditMeta

/-- The collections before anything was audited. -/
def Database.empty : Database := ⟨.empty, .empty⟩

/-- The `_id` of a document: its session and its number, joined by a NUL. -/
def AuditRow.id (row : AuditRow) : String := s!"{row.sessionId}\x00{row.sequence}"

/-- `_entry_document` as it is read back by `_restore_timestamp`: the timestamp is stored as a
date. -/
def stored (entry : SessionAuditEntry) : SessionAuditEntry :=
  { entry with timestamp := toStoredResolution entry.timestamp }

/-- The documents of a batch of a session, numbered from `firstSequence` on. -/
def documents (sessionId : SessionId) (firstSequence : ℕ) (entries : List SessionAuditEntry) :
    List AuditRow :=
  entries.mapIdx (fun index entry => ⟨sessionId, firstSequence + index, stored entry⟩)

namespace Database

/-- The conditional upsert of `append_many`: the last number of the range and the collections
after it, or nothing where the session has a higher epoch, since the insert then collides. -/
def allocate (database : Database) (sessionId : SessionId) (currentEpoch : Epoch) (count : ℕ) :
    Option (ℕ × Database) :=
  match database.metas.get? sessionId with
  | none =>
    some (count,
      { database with metas := database.metas.set sessionId ⟨count, some currentEpoch⟩ })
  | some counters =>
    if counters.maxEpoch.all (· ≤ currentEpoch) then
      let sequence := counters.sequence + count
      let maxEpoch := max (counters.maxEpoch.getD currentEpoch) currentEpoch
      some (sequence,
        { database with metas := database.metas.set sessionId ⟨sequence, some maxEpoch⟩ })
    else
      none

/-- One document of `insert_many`, unless its `_id` is taken. -/
def insert (database : Database) (row : AuditRow) : Option Database :=
  match database.committed.get? row.id with
  | some _ => none
  | none => some { database with committed := database.committed.set row.id row }

/-- The documents of a session. -/
def rowsOf (database : Database) (sessionId : SessionId) : List AuditRow :=
  database.committed.values.filter (fun row => row.sessionId = sessionId)

end Database

/-- What `replay` sorts by and reads past. -/
def sequenceKey (row : AuditRow) : ℤ := row.sequence

/-- `replay`: the entries of a session, read a page at a time. -/
def replay (database : Database) (sessionId : SessionId) : List SessionAuditEntry :=
  (Paging.scan sequenceKey pageSize (database.rowsOf sessionId) (-1)).map AuditRow.entry

/-! ### The calls -/

/-- How a call of `append_many` has ended. -/
inductive Outcome where
  | returned
  | rejected (error : OrchestrationError)
  /-- An insert has collided. -/
  | duplicateKey
  | crashed
  deriving DecidableEq, Repr

/-- A call of `append_many` with a batch that is not empty. The first entry carries the session
and the epoch of the batch. -/
structure Append where
  first : SessionAuditEntry
  rest : List SessionAuditEntry
  /-- The first number of its range, once that is allocated. -/
  firstSequence : Option ℕ
  /-- How many of its documents are inserted. -/
  inserted : ℕ
  outcome : Option Outcome
  deriving DecidableEq, Repr

namespace Append

/-- A call that has done nothing yet. -/
def begun (first : SessionAuditEntry) (rest : List SessionAuditEntry) : Append :=
  ⟨first, rest, none, 0, none⟩

/-- The batch. -/
def entries (call : Append) : List SessionAuditEntry := call.first :: call.rest

/-- The documents a call inserts, once its range is allocated. -/
def documents (call : Append) : List AuditRow :=
  match call.firstSequence with
  | none => []
  | some firstSequence => MongoAudit.documents call.first.sessionId firstSequence call.entries

/-- The documents a call has inserted. -/
def rows (call : Append) : List AuditRow := call.documents.take call.inserted

/-- `StaleEpochError`. -/
def staleEpoch (call : Append) : OrchestrationError :=
  .staleEpoch s!"epoch {call.first.epoch} is stale for session {call.first.sessionId}"

end Append

/-- The moves of a call. -/
inductive Move where
  | allocate
  | insert
  | finish
  | crash
  deriving DecidableEq, Repr

/-- A move of a call, if it is open to it. -/
def move (database : Database) (call : Append) (m : Move) : Option (Database × Append) :=
  match call.outcome, call.firstSequence, m with
  | none, none, .allocate =>
    let count := call.entries.length
    match database.allocate call.first.sessionId call.first.epoch count with
    | none => some (database, { call with outcome := some (.rejected call.staleEpoch) })
    | some (sequence, database) =>
      some (database, { call with firstSequence := some (sequence - count + 1) })
  | none, some _, .insert =>
    match call.documents[call.inserted]? with
    | none => none
    | some row =>
      match database.insert row with
      | none => some (database, { call with outcome := some .duplicateKey })
      | some database => some (database, { call with inserted := call.inserted + 1 })
  | none, some _, .finish =>
    if call.inserted = call.entries.length then
      some (database, { call with outcome := some .returned })
    else
      none
  | none, _, .crash => some (database, { call with outcome := some .crashed })
  | _, _, _ => none

/-- The collections with the calls on them. -/
abbrev State := Threads Database Append

/-- What can happen: a call begins, or makes a move. -/
inductive Action where
  | appendMany (entries : List SessionAuditEntry)
  | move (call : ℕ) (move : Move)
  deriving DecidableEq, Repr

/-- One action. An empty batch returns at once. -/
def step (s : State) : Action → Option State
  | .appendMany [] => some s
  | .appendMany (first :: rest) => some (s.start (.begun first rest))
  | .move i m => s.advance move i m

/-- No calls yet. -/
def initial : State := ⟨.empty, []⟩

/-! ### What a move can do -/

/-- Everything a move of a call can do. -/
inductive Moved (database : Database) (call : Append) : Move → Database → Append → Prop where
  | rejected :
    call.outcome = none →
    call.firstSequence = none →
    database.allocate call.first.sessionId call.first.epoch call.entries.length = none →
    Moved database call .allocate database
      { call with outcome := some (.rejected call.staleEpoch) }
  | allocated {sequence : ℕ} {database' : Database} :
    call.outcome = none →
    call.firstSequence = none →
    database.allocate call.first.sessionId call.first.epoch call.entries.length
      = some (sequence, database') →
    Moved database call .allocate database'
      { call with firstSequence := some (sequence - call.entries.length + 1) }
  | duplicateKey {firstSequence : ℕ} {row : AuditRow} :
    call.outcome = none →
    call.firstSequence = some firstSequence →
    call.documents[call.inserted]? = some row →
    database.insert row = none →
    Moved database call .insert database { call with outcome := some .duplicateKey }
  | inserted {firstSequence : ℕ} {row : AuditRow} {database' : Database} :
    call.outcome = none →
    call.firstSequence = some firstSequence →
    call.documents[call.inserted]? = some row →
    database.insert row = some database' →
    Moved database call .insert database' { call with inserted := call.inserted + 1 }
  | finished {firstSequence : ℕ} :
    call.outcome = none →
    call.firstSequence = some firstSequence →
    call.inserted = call.entries.length →
    Moved database call .finish database { call with outcome := some .returned }
  | crashed :
    call.outcome = none →
    Moved database call .crash database { call with outcome := some .crashed }

theorem moved_of_move {database database' : Database} {call call' : Append} {m : Move}
    (h : move database call m = some (database', call')) :
  Moved database call m database' call'
  := by
  obtain ⟨first, rest, firstSequence, inserted, outcome⟩ := call
  cases outcome with
  | some outcome => cases h
  | none =>
      cases m with
      | allocate =>
          cases firstSequence with
          | some firstSequence => cases h
          | none =>
              simp only [move] at h
              split at h
              · rename_i hallocate
                cases h
                apply Moved.rejected rfl rfl hallocate
              · rename_i hallocate
                cases h
                apply Moved.allocated rfl rfl hallocate
      | insert =>
          cases firstSequence with
          | none => cases h
          | some firstSequence =>
              simp only [move] at h
              split at h
              · cases h
              · rename_i hrow
                split at h
                · rename_i hinsert
                  cases h
                  apply Moved.duplicateKey rfl rfl hrow hinsert
                · rename_i hinsert
                  cases h
                  apply Moved.inserted rfl rfl hrow hinsert
      | finish =>
          cases firstSequence with
          | none => cases h
          | some firstSequence =>
              simp only [move] at h
              split at h
              · rename_i hall
                cases h
                apply Moved.finished rfl rfl hall
              · cases h
      | crash =>
          simp only [move] at h
          cases h
          apply Moved.crashed rfl

/-- What a step of the sink does. -/
theorem step_cases {s s' : State} {action : Action} (h : step s action = some s') :
  s' = s
    ∨ (∃ first rest, s' = s.start (.begun first rest))
    ∨ ∃ i call m database' call', s.points[i]? = some call
        ∧ Moved s.shared call m database' call' ∧ s' = ⟨database', s.points.set i call'⟩
  := by
  cases action with
  | appendMany entries =>
      cases entries with
      | nil =>
          left
          cases h
          rfl
      | cons first rest =>
          right
          left
          cases h
          use first, rest
  | move i m =>
      right
      right
      obtain ⟨call, database', call', hcall, hmove, rfl⟩ := Threads.advance_eq_some.mp h
      use i, call, m, database', call', hcall, moved_of_move hmove

end MongoAudit

end Orcastork
