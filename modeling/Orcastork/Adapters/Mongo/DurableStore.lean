import Mathlib.Data.Finset.Insert
import Mathlib.Data.Finset.Card
import Orcastork.Adapters.Memory.DurableStore

/-!
# The Mongo durable store, operation by operation

A call of `MongoDurableStore` is a sequence of single database operations, each atomic; calls
interleave between any two of them. Every call first passes the epoch guard of its scope,
and then reads and writes its record in separate operations.

The guards live in companion collections of their own, apart from the records. The records
of all other collections are in one map, by collection and `_id`: versioned documents and
set documents of one table are in one collection.
-/

namespace Orcastork

namespace MongoDurableStore

/-- A record, with the fields that have been set. -/
structure Record where
  document : Option Document
  version : Option ℕ
  epoch : Option Epoch
  status : Option String
  updatedAt : Option Timestamp
  members : Option (Finset String)

/-- A collection and an `_id` in it. -/
abbrev RecordId := String × String

/-- The database: the guards and the records. -/
structure Database where
  fencing : Dict RecordId Epoch
  data : Dict RecordId Record

/-- The database with nothing in it. -/
def Database.initial : Database := ⟨.empty, .empty⟩

/-- The calls of the store that are guarded. -/
inductive Call where
  | upsert (table key : String) (document : Document) (expectedVersion : ℕ)
      (status : Option String) (updatedAt : Option Timestamp)
  | addToSet (table key fieldName value : String)
  | markContribution (sessionId : SessionId) (operatorId : OperatorId)

/-- The guard a call passes first: the one of its table and key, or of its session. -/
def Call.scope : Call → RecordId
  | .upsert table key _ _ _ _ => (table ++ "-fencing", key)
  | .addToSet table key _ _ => (table ++ "-fencing", key)
  | .markContribution sessionId _ => ("contributions-fencing", sessionId)

/-- The record a call reads and writes. -/
def Call.target : Call → RecordId
  | .upsert table key _ _ _ _ => (table, key)
  | .addToSet table key fieldName _ => (table, key ++ "\x00" ++ fieldName)
  | .markContribution sessionId operatorId =>
    ("contributions", sessionId ++ "\x00" ++ operatorId)

/-- What a call returns: a document's version, a set's size, or whether a marker is new. -/
inductive Returned where
  | version (version : ℕ)
  | size (size : ℕ)
  | marked (new : Bool)
  deriving DecidableEq, Repr

/-- The database operation a call makes next, or how it ended. -/
inductive Stage where
  | guard
  | find
  | insert
  | update
  | addToSet
  | mark
  | finished (result : Except OrchestrationError Returned)

/-- The text of the error of a failed guard. -/
def Call.staleMessage (epoch : Epoch) : Call → String
  | .upsert _ key _ _ _ _ => s!"epoch {epoch} is stale for durable {pyRepr key}"
  | .addToSet _ key _ _ => s!"epoch {epoch} is stale for durable {pyRepr key}"
  | .markContribution sessionId _ =>
    s!"epoch {epoch} is stale for contributions in session {sessionId}"

/-- The operation that follows an accepted guard. -/
def Call.afterGuard : Call → Stage
  | .upsert _ _ _ _ _ _ => .find
  | .addToSet _ _ _ _ => .addToSet
  | .markContribution _ _ => .mark

/-- `_guard_durable_epoch` and `_guard_contribution_epoch`: the upserting conditional update
of a guard. It matches where no higher epoch is stored, and inserts where nothing is; else
the insert meets the record that is there and fails. -/
def Database.guardEpoch (database : Database) (scope : RecordId) (epoch : Epoch) :
    Option Database :=
  match database.fencing.get? scope with
  | none => some { database with fencing := database.fencing.set scope epoch }
  | some fence =>
    if fence ≤ epoch then
      some { database with fencing := database.fencing.set scope (max fence epoch) }
    else
      none

/-- `find_one` of the document, and what `upsert` decides on it. -/
def findStage (database : Database) (table key : String) (expectedVersion : ℕ) : Stage :=
  match database.data.get? (table, key) with
  | none =>
    if expectedVersion ≠ 0 then
      .finished (.error (.optimisticConcurrency
        (s!"expected version {expectedVersion} but {table}/{pyRepr key} does not exist")))
    else
      .insert
  | some existing =>
    match existing.version with
    | none => .finished (.error (.keyError "version"))
    | some version =>
      if version ≠ expectedVersion then
        .finished (.error (.optimisticConcurrency
          (s!"version conflict on {table}/{pyRepr key}: expected {expectedVersion}, " ++
            s!"got {version}")))
      else
        .update

/-- The record `insert_one` and the update of `upsert` leave. -/
def upserted (document : Document) (version : ℕ) (epoch : Epoch) (status : Option String)
    (updatedAt : Option Timestamp) (members : Option (Finset String)) : Record :=
  ⟨some document, some version, some epoch, status, updatedAt, members⟩

/-- The members of a set document, none if it is not there. -/
def membersOf (database : Database) (target : RecordId) : Finset String :=
  ((database.data.get? target).bind Record.members).getD ∅

/-- A set document with a value added. -/
def withMember (database : Database) (target : RecordId) (value : String) : Record :=
  let members := insert value (membersOf database target)
  match database.data.get? target with
  | none => ⟨none, none, none, none, none, some members⟩
  | some record => { record with members := some members }

/-- A call on its way, and the number of mutations that had been applied when its guard was
accepted. -/
structure Writer where
  epoch : Epoch
  call : Call
  stage : Stage
  guardedAt : ℕ

/-- The next operation of a call: the database after it, the stage it leads to, and whether
it applied the call's mutation. A stage that is not one of the call's makes no operation. -/
def operate (database : Database) (epoch : Epoch) (call : Call) (stage : Stage) :
    Database × Stage × Bool :=
  match stage, call with
  | .guard, call =>
    match database.guardEpoch call.scope epoch with
    | some database => (database, call.afterGuard, false)
    | none => (database, .finished (.error (.staleEpoch (call.staleMessage epoch))), false)
  | .find, .upsert table key _ expectedVersion _ _ =>
    (database, findStage database table key expectedVersion, false)
  | .insert, .upsert table key document _ status updatedAt =>
    match database.data.get? (table, key) with
    | none =>
      ({ database with
          data := database.data.set (table, key)
            (upserted document 1 epoch status updatedAt none) },
        .finished (.ok (.version 1)), true)
    | some _ =>
      (database,
        .finished (.error (.optimisticConcurrency
          s!"concurrent insert of {table}/{pyRepr key}")), false)
  | .update, .upsert table key document expectedVersion status updatedAt =>
    match database.data.get? (table, key) with
    | some existing =>
      if existing.version = some expectedVersion then
        ({ database with
            data := database.data.set (table, key)
              (upserted document (expectedVersion + 1) epoch status updatedAt
                existing.members) },
          .finished (.ok (.version (expectedVersion + 1))), true)
      else
        (database,
          .finished (.error (.optimisticConcurrency
            s!"version conflict on {table}/{pyRepr key} (lost the race)")), false)
    | none =>
      (database,
        .finished (.error (.optimisticConcurrency
          s!"version conflict on {table}/{pyRepr key} (lost the race)")), false)
  | .addToSet, .addToSet table key fieldName value =>
    let target := (Call.addToSet table key fieldName value).target
    ({ database with data := database.data.set target (withMember database target value) },
      .finished (.ok (.size (insert value (membersOf database target)).card)), true)
  | .mark, .markContribution sessionId operatorId =>
    let target := (Call.markContribution sessionId operatorId).target
    match database.data.get? target with
    | none =>
      ({ database with
          data := database.data.set target ⟨none, none, some epoch, none, none, none⟩ },
        .finished (.ok (.marked true)), true)
    | some _ => (database, .finished (.ok (.marked false)), false)
  | stage, _ => (database, stage, false)

/-! ### Guards -/

/-- The fence of a scope: the epoch stored in its guard. -/
def Database.fence (database : Database) (scope : RecordId) : Epoch :=
  (database.fencing.get? scope).getD 0

/-- An accepted guard sets the fence of its scope, which was not above, to its epoch. -/
theorem guardEpoch_some {database database' : Database} {scope : RecordId} {epoch : Epoch}
    (h : database.guardEpoch scope epoch = some database') :
  database.fence scope ≤ epoch
    ∧ database' = { database with fencing := database.fencing.set scope epoch }
  := by
  unfold Database.guardEpoch at h
  unfold Database.fence
  cases hget : database.fencing.get? scope with
  | none =>
      rw [hget] at h
      cases h
      exact ⟨Nat.zero_le _, rfl⟩
  | some fence =>
      simp only [hget] at h
      obtain ⟨hle, heq⟩ := Option.ite_none_right_eq_some.mp h
      cases heq
      rw [max_eq_right hle]
      exact ⟨hle, rfl⟩

/-- A guard is rejected exactly below the fence. -/
theorem guardEpoch_eq_none_iff {database : Database} {scope : RecordId} {epoch : Epoch} :
  database.guardEpoch scope epoch = none ↔ epoch < database.fence scope
  := by
  unfold Database.guardEpoch Database.fence
  cases database.fencing.get? scope with
  | none => simp
  | some fence => simp

theorem fence_set (database : Database) (scope scope' : RecordId) (epoch : Epoch) :
  Database.fence { database with fencing := database.fencing.set scope epoch } scope'
    = if scope = scope' then epoch else database.fence scope'
  := by
  simp only [Database.fence, Dict.get?_set]
  split
  · rfl
  · rfl

/-- Whether a stage is that of a call that ended in a `StaleEpochError`. -/
def Stage.isStale : Stage → Bool
  | .finished result => DurableStore.isStale result
  | _ => false

/-! ### Operations after the guard -/

/-- Whether a stage lies between the accepted guard and the end of its call. -/
def Stage.pastGuard : Stage → Bool
  | .find | .insert | .update | .addToSet | .mark => true
  | .guard | .finished _ => false

/-- Whether the next operation of a call finds its record as it needs it to write: nothing to
collide with, the expected version, a value that is not yet in the set. -/
def Effective (database : Database) : Stage → Call → Prop
  | .insert, .upsert table key _ _ _ _ => database.data.get? (table, key) = none
  | .update, .upsert table key _ expectedVersion _ _ =>
    (database.data.get? (table, key)).bind Record.version = some expectedVersion
  | .addToSet, .addToSet table key fieldName value =>
    value ∉ membersOf database (Call.addToSet table key fieldName value).target
  | .mark, .markContribution sessionId operatorId =>
    database.data.get? (Call.markContribution sessionId operatorId).target = none
  | _, _ => False

/-- A guard that is accepted sets the fence and lets the call go on. -/
theorem operate_guard_of_le {database : Database} {epoch : Epoch} {call : Call}
    (h : database.fence call.scope ≤ epoch) :
  operate database epoch call .guard
    = ({ database with fencing := database.fencing.set call.scope epoch }, call.afterGuard,
        false)
  := by
  cases hguard : database.guardEpoch call.scope epoch with
  | none => exact absurd (guardEpoch_eq_none_iff.mp hguard) (Nat.not_lt.mpr h)
  | some database' =>
      obtain ⟨-, rfl⟩ := guardEpoch_some hguard
      simp only [operate, hguard]

/-- A guard that is rejected ends the call and changes nothing. -/
theorem operate_guard_of_lt {database : Database} {epoch : Epoch} {call : Call}
    (h : epoch < database.fence call.scope) :
  operate database epoch call .guard
    = (database, .finished (.error (.staleEpoch (call.staleMessage epoch))), false)
  := by
  simp only [operate, guardEpoch_eq_none_iff.mpr h]

/-- The guards as a machine with fenced calls: what the first operation of each call does to
them, and whether it ends the call as stale. -/
def fenced : Fence.System Database Call RecordId where
  initial := .initial
  scope := Call.scope
  perform := fun database epoch call => (operate database epoch call .guard).1
  rejected := fun database epoch call => (operate database epoch call .guard).2.1.isStale
  fence := Database.fence
  fence_initial := fun _ => rfl
  rejected_iff_lt := by
    intro database epoch call
    rcases Nat.lt_or_ge epoch (database.fence call.scope) with hlt | hle
    · rw [operate_guard_of_lt hlt]
      exact iff_of_true rfl hlt
    · rw [operate_guard_of_le hle]
      apply iff_of_false _ (Nat.not_lt.mpr hle)
      cases call with
      | upsert => exact Bool.false_ne_true
      | addToSet => exact Bool.false_ne_true
      | markContribution => exact Bool.false_ne_true
  fence_perform := by
    intro database epoch call scope
    rw [Fence.attempt_eq_max]
    rcases Nat.lt_or_ge epoch (database.fence call.scope) with hlt | hle
    · rw [operate_guard_of_lt hlt]
      split
      · rename_i hscope
        rw [← hscope, max_eq_left hlt.le]
      · rfl
    · rw [operate_guard_of_le hle, fence_set]
      split
      · rename_i hscope
        rw [← hscope, max_eq_right hle]
      · rfl

/-- After the guard no operation touches the guards, and one that applies no mutation
changes nothing. -/
theorem operate_of_ne_guard (database : Database) (epoch : Epoch) (call : Call)
    {stage : Stage} (h : stage ≠ .guard) :
  (operate database epoch call stage).1.fencing = database.fencing
    ∧ ((operate database epoch call stage).2.2 = false →
      (operate database epoch call stage).1 = database)
  := by
  unfold operate
  split
  · exact absurd rfl h
  · exact ⟨rfl, fun _ => rfl⟩
  · split
    · exact ⟨rfl, fun h => by cases h⟩
    · exact ⟨rfl, fun _ => rfl⟩
  · split
    · split
      · exact ⟨rfl, fun h => by cases h⟩
      · exact ⟨rfl, fun _ => rfl⟩
    · exact ⟨rfl, fun _ => rfl⟩
  · exact ⟨rfl, fun h => by cases h⟩
  · simp only
    split
    · exact ⟨rfl, fun h => by cases h⟩
    · exact ⟨rfl, fun _ => rfl⟩
  · exact ⟨rfl, fun _ => rfl⟩

/-- Only a stage past the guard is followed by one past the guard, the guard itself apart. -/
theorem pastGuard_of_operate {database : Database} {epoch : Epoch} {call : Call}
    {stage : Stage} (hstage : stage ≠ .guard)
    (h : (operate database epoch call stage).2.1.pastGuard = true) :
  stage.pastGuard = true
  := by
  cases stage with
  | guard => exact absurd rfl hstage
  | finished result => exact h
  | find => rfl
  | insert => rfl
  | update => rfl
  | addToSet => rfl
  | mark => rfl

/-- Only a stage past the guard applies a mutation. -/
theorem pastGuard_of_applied {database : Database} {epoch : Epoch} {call : Call}
    {stage : Stage} (h : (operate database epoch call stage).2.2 = true) :
  stage.pastGuard = true
  := by
  cases stage with
  | guard =>
      rcases Nat.lt_or_ge epoch (database.fence call.scope) with hlt | hle
      · rw [operate_guard_of_lt hlt] at h
        cases h
      · rw [operate_guard_of_le hle] at h
        cases h
  | finished result => cases h
  | find => rfl
  | insert => rfl
  | update => rfl
  | addToSet => rfl
  | mark => rfl

theorem pastGuard_of_effective {database : Database} {call : Call} {stage : Stage}
    (h : Effective database stage call) :
  stage.pastGuard = true
  := by
  cases stage with
  | guard => exact h.elim
  | finished result => exact h.elim
  | find => rfl
  | insert => rfl
  | update => rfl
  | addToSet => rfl
  | mark => rfl

/-! ### Operations that change records -/

theorem data_ne_of_get? {database : Database} {target : RecordId} {record : Record}
    (h : database.data.get? target ≠ some record) :
  database.data.set target record ≠ database.data
  := by
  intro heq
  apply h
  rw [← heq, Dict.get?_set_self]

/-- Adding a value changes a set document exactly if the value is not in it. -/
theorem set_withMember_ne_iff {database : Database} {target : RecordId} {value : String} :
  database.data.set target (withMember database target value) ≠ database.data
    ↔ value ∉ membersOf database target
  := by
  constructor
  · intro hne hmem
    apply hne
    apply Dict.set_eq_self
    unfold withMember
    rw [Finset.insert_eq_of_mem hmem]
    unfold membersOf at hmem ⊢
    cases hget : database.data.get? target with
    | none => simp [hget] at hmem
    | some record =>
        cases hmembers : record.members with
        | none => simp [hget, hmembers] at hmem
        | some members =>
            cases record
            cases hmembers
            rfl
  · intro hmem
    apply data_ne_of_get?
    intro hget
    apply hmem
    have hmembers : membersOf database target = insert value (membersOf database target) := by
      conv_lhs => rw [membersOf, hget]
      unfold withMember
      cases database.data.get? target with
      | none => rfl
      | some record => rfl
    rw [hmembers]
    exact Finset.mem_insert_self value _

theorem operate_guard_data (database : Database) (epoch : Epoch) (call : Call) :
  (operate database epoch call .guard).1.data = database.data
  := by
  rcases Nat.lt_or_ge epoch (database.fence call.scope) with hlt | hle
  · rw [operate_guard_of_lt hlt]
  · rw [operate_guard_of_le hle]

/-- An operation changes the records exactly where it is effective. -/
theorem operate_data_ne_iff {database : Database} {epoch : Epoch} {call : Call} {stage : Stage} :
  (operate database epoch call stage).1.data ≠ database.data ↔ Effective database stage call
  := by
  cases stage with
  | guard => exact iff_of_false (fun h => h (operate_guard_data database epoch call)) id
  | finished result => exact iff_of_false (fun h => h rfl) id
  | find =>
      cases call with
      | upsert => exact iff_of_false (fun h => h rfl) id
      | addToSet => exact iff_of_false (fun h => h rfl) id
      | markContribution => exact iff_of_false (fun h => h rfl) id
  | insert =>
      cases call with
      | upsert table key document expectedVersion status updatedAt =>
          simp only [operate, Effective]
          cases hget : database.data.get? (table, key) with
          | none =>
              apply iff_of_true _ rfl
              apply data_ne_of_get?
              rw [hget]
              exact (Option.some_ne_none _).symm
          | some record => exact iff_of_false (fun h => h rfl) (Option.some_ne_none record)
      | addToSet => exact iff_of_false (fun h => h rfl) id
      | markContribution => exact iff_of_false (fun h => h rfl) id
  | update =>
      cases call with
      | upsert table key document expectedVersion status updatedAt =>
          simp only [operate, Effective]
          cases hget : database.data.get? (table, key) with
          | none => exact iff_of_false (fun h => h rfl) (Option.some_ne_none _).symm
          | some existing =>
              simp only [Option.bind_some]
              by_cases hversion : existing.version = some expectedVersion
              · rw [if_pos hversion]
                apply iff_of_true _ hversion
                apply data_ne_of_get?
                rw [hget]
                intro heq
                have hnext := congrArg Record.version (Option.some.inj heq)
                rw [hversion] at hnext
                simp [upserted] at hnext
              · rw [if_neg hversion]
                exact iff_of_false (fun h => h rfl) hversion
      | addToSet => exact iff_of_false (fun h => h rfl) id
      | markContribution => exact iff_of_false (fun h => h rfl) id
  | addToSet =>
      cases call with
      | upsert => exact iff_of_false (fun h => h rfl) id
      | addToSet table key fieldName value => exact set_withMember_ne_iff
      | markContribution => exact iff_of_false (fun h => h rfl) id
  | mark =>
      cases call with
      | upsert => exact iff_of_false (fun h => h rfl) id
      | addToSet => exact iff_of_false (fun h => h rfl) id
      | markContribution sessionId operatorId =>
          simp only [operate, Effective]
          cases hget : database.data.get?
              (Call.markContribution sessionId operatorId).target with
          | none =>
              apply iff_of_true _ rfl
              apply data_ne_of_get?
              rw [hget]
              exact (Option.some_ne_none _).symm
          | some record => exact iff_of_false (fun h => h rfl) (Option.some_ne_none record)

end MongoDurableStore

end Orcastork
