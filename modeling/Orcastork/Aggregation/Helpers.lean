import Orcastork.Adapters.Memory.DurableStore
import Orcastork.Adapters.Mongo.DurableStore
import Orcastork.Library.Interleaving
import Orcastork.Library.Optimistic

/-!
# The upsert of the aggregation helpers

`AggregationHelpers.upsert` reads a document and then writes it guarded by the version it
read. The read is one step of its call, and so is every operation the store makes for the
write; any number of calls interleave between any two of them. All calls here are of one
table and key.

What the helpers use of a store is `DurablePort`. The in-memory store carries out a write at
once, the Mongo store in several operations.
-/

namespace Orcastork

/-- `AggregateStatus`. -/
inductive AggregateStatus where
  | inProgress
  | final
  deriving DecidableEq, Repr

/-- The string of a status. -/
def AggregateStatus.value : AggregateStatus → String
  | .inProgress => "in_progress"
  | .final => "final"

/-! ### The store of one table and key -/

/-- The arguments of `upsert` of a store, the table and the key apart. -/
structure UpsertCall where
  document : Document
  expectedVersion : ℕ
  epoch : Epoch
  status : Option String
  updatedAt : Option Timestamp

/-- Whether a write goes on, or how it ended. -/
inductive WriteProgress (Stage : Type) where
  | more (stage : Stage)
  | finished (result : Except OrchestrationError ℕ)

/-- A durable store, as far as one table and key are concerned. -/
structure DurablePort (State Stage : Type) where
  initial : State
  read : State → Except OrchestrationError (Option StoredDocument)
  /-- Where a write begins. -/
  start : Stage
  /-- The next operation of a write. -/
  operate : State → UpsertCall → Stage → State × WriteProgress Stage

/-- `InMemoryDurableStore`: a write is one step. -/
def DurableStore.port (table key : String) : DurablePort DurableStore Unit where
  initial := .initial
  read := fun store => .ok (store.read table key)
  start := ()
  operate := fun store upsert _ =>
    let (result, store) := store.upsert table key upsert.document upsert.expectedVersion
      upsert.epoch upsert.status upsert.updatedAt
    (store, .finished result)

namespace MongoDurableStore

/-- `read`: `find_one`, and the fields of the record that is found. -/
def Database.read (database : Database) (table key : String) :
    Except OrchestrationError (Option StoredDocument) :=
  match database.data.get? (table, key) with
  | none => .ok none
  | some stored =>
    match stored.document, stored.version with
    | none, _ => .error (.keyError "document")
    | some _, none => .error (.keyError "version")
    | some document, some version =>
      .ok (some ⟨document, version, stored.status, stored.updatedAt⟩)

/-- What a call returned, as an integer. -/
def Returned.toNat : Returned → ℕ
  | .version n => n
  | .size n => n
  | .marked b => b.toNat

/-- The progress of a call at a stage. -/
def Stage.progress : Stage → WriteProgress Stage
  | .finished result => .finished (result.map Returned.toNat)
  | stage => .more stage

/-- `MongoDurableStore`: a write is a guard, a read, and an insert or an update. -/
def port (table key : String) : DurablePort Database Stage where
  initial := .initial
  read := fun database => database.read table key
  start := .guard
  operate := fun database upsert stage =>
    let (database, stage, _) := MongoDurableStore.operate database upsert.epoch
      (.upsert table key upsert.document upsert.expectedVersion upsert.status upsert.updatedAt)
      stage
    (database, stage.progress)

end MongoDurableStore

/-! ### The helpers -/

/-- What `AggregationHelpers` are bound to, as far as `upsert` uses it. -/
structure AggregationHelpers where
  epoch : Epoch
  isFinal : Bool
  deriving DecidableEq, Repr

/-- The status the helpers write. -/
def AggregationHelpers.status (helpers : AggregationHelpers) : AggregateStatus :=
  if helpers.isFinal then .final else .inProgress

namespace Helpers

/-- Where a call of `upsert` stands. -/
inductive Point (Stage : Type) where
  | reading (helpers : AggregationHelpers) (document : Document)
  | writing (helpers : AggregationHelpers) (existing : Option StoredDocument)
      (upsert : UpsertCall) (stage : Stage)
  | returned (version : ℕ)
  | raised (error : OrchestrationError)

/-- The store, and the versions its writes have returned so far, the last one last. -/
structure Shared (State : Type) where
  store : State
  versions : List ℕ

variable {State Stage : Type} (port : DurablePort State Stage)

/-- What `upsert` does with the document it read: an interim write of a final document is
left out, and the version it has is returned. -/
def afterRead (helpers : AggregationHelpers) (document : Document) (now : Timestamp)
    (existing : Option StoredDocument) : Point Stage :=
  let expectedVersion := Optimistic.versionOf StoredDocument.version existing
  if helpers.isFinal = false ∧
      existing.bind StoredDocument.status = some AggregateStatus.final.value then
    .returned expectedVersion
  else
    .writing helpers existing
      { document := document
        expectedVersion := expectedVersion
        epoch := helpers.epoch
        status := some helpers.status.value
        updatedAt := some now }
      port.start

/-- The next step of a call. The time is that of the clock, which is asked after the read. -/
def move (shared : Shared State) (point : Point Stage) (now : Timestamp) :
    Option (Shared State × Point Stage) :=
  match point with
  | .reading helpers document =>
    match port.read shared.store with
    | .error error => some (shared, .raised error)
    | .ok existing => some (shared, afterRead port helpers document now existing)
  | .writing helpers existing upsert stage =>
    match port.operate shared.store upsert stage with
    | (store, .more stage) =>
      some ({ shared with store := store }, .writing helpers existing upsert stage)
    | (store, .finished (.error error)) => some ({ shared with store := store }, .raised error)
    | (store, .finished (.ok version)) =>
      some (⟨store, shared.versions ++ [version]⟩, .returned version)
  | .returned _ => none
  | .raised _ => none

/-- The store and the calls made so far. -/
abbrev World (State Stage : Type) := Threads (Shared State) (Point Stage)

/-- A call is made, or one of the calls takes its next step. -/
inductive Action where
  | call (helpers : AggregationHelpers) (document : Document)
  | move (call : ℕ) (now : Timestamp)

/-- What a call is made with. -/
def Action.request? : Action → Option (AggregationHelpers × Document)
  | .call helpers document => some (helpers, document)
  | .move _ _ => none

/-- What the calls of a run are made with, in the order of the calls. -/
def requests (actions : List Action) : List (AggregationHelpers × Document) :=
  actions.filterMap Action.request?

/-- The store with nothing in it, and no call. -/
def initial : World State Stage := ⟨⟨port.initial, []⟩, []⟩

def step (world : World State Stage) : Action → Option (World State Stage)
  | .call helpers document => some (world.start (.reading helpers document))
  | .move call now => world.advance (move port) call now

end Helpers

end Orcastork
