import Mathlib.Data.Finset.Insert
import Mathlib.Data.Finset.Card
import Mathlib.Data.Finset.Erase
import Orcastork.DataPoints.Base
import Orcastork.Library.Dict
import Orcastork.Library.Fence

/-!
# The in-memory durable store

Versioned documents, sets and contribution markers. Every output is fenced by the highest
epoch that wrote to its scope, whatever session the epoch was minted for: the scope of a
document and of the sets beside it is the pair of table and key, that of a contribution
marker its session.

An operation returns what it raised or returned, and the store it leaves behind: a version
conflict is raised after the fence has moved.
-/

namespace Orcastork

/-- The business document of a record. -/
abbrev Document := Dict String Value

/-- A document in the store, with the framework's metadata. -/
structure StoredDocument where
  document : Document
  version : ℕ
  status : Option String
  updatedAt : Option Timestamp

/-- The durable outputs of all sessions. -/
structure DurableStore where
  /-- By table and key. -/
  documents : Dict (String × String) StoredDocument
  /-- By table, key and field. -/
  sets : Dict (String × String × String) (Finset String)
  contributions : Finset (SessionId × OperatorId)
  /-- The highest epoch accepted, by scope. -/
  maxEpoch : Dict String Epoch

namespace DurableStore

/-- The store nothing was written to. -/
def initial : DurableStore where
  documents := .empty
  sets := .empty
  contributions := ∅
  maxEpoch := .empty

/-! ### Fencing -/

/-- The scope of a document and of the sets beside it. -/
def keyScope (table key : String) : String := table ++ "\x00" ++ key

/-- The scope of a session's contribution markers. -/
def contributionScope (sessionId : SessionId) : String := "contribution:" ++ sessionId

/-- The fence of a scope: the highest epoch accepted for it. -/
def fence (store : DurableStore) (scope : String) : Epoch :=
  (store.maxEpoch.get? scope).getD 0

/-- `_guard_epoch`: an epoch below the scope's fence is rejected, any other becomes the
fence. -/
def guardEpoch (store : DurableStore) (scope : String) (epoch : Epoch) :
    Except OrchestrationError DurableStore :=
  if epoch < store.fence scope then
    .error (.staleEpoch s!"epoch {epoch} is stale for {pyRepr scope}")
  else
    .ok { store with maxEpoch := store.maxEpoch.set scope epoch }

/-! ### Operations -/

/-- `read`. -/
def read (store : DurableStore) (table key : String) : Option StoredDocument :=
  store.documents.get? (table, key)

/-- The version a write of the document must expect: `0` for a new one. -/
def versionOf (store : DurableStore) (table key : String) : ℕ :=
  match store.documents.get? (table, key) with
  | none => 0
  | some current => current.version

/-- `upsert`: the document written at the next version, if it is at the expected one. -/
def upsert (store : DurableStore) (table key : String) (document : Document)
    (expectedVersion : ℕ) (epoch : Epoch) (status : Option String)
    (updatedAt : Option Timestamp) : Except OrchestrationError ℕ × DurableStore :=
  match store.guardEpoch (keyScope table key) epoch with
  | .error error => (.error error, store)
  | .ok store =>
    let currentVersion := store.versionOf table key
    if currentVersion ≠ expectedVersion then
      (.error (.optimisticConcurrency
        (s!"version conflict on {table}/{pyRepr key}: expected {expectedVersion}, " ++
          s!"got {currentVersion}")), store)
    else
      let newVersion := currentVersion + 1
      (.ok newVersion,
        { store with
          documents :=
            store.documents.set (table, key) ⟨document, newVersion, status, updatedAt⟩ })

/-- `add_to_set`: the value added, and the size of the set then. -/
def addToSet (store : DurableStore) (table key fieldName value : String) (epoch : Epoch) :
    Except OrchestrationError ℕ × DurableStore :=
  match store.guardEpoch (keyScope table key) epoch with
  | .error error => (.error error, store)
  | .ok store =>
    let members := insert value ((store.sets.get? (table, key, fieldName)).getD ∅)
    (.ok members.card, { store with sets := store.sets.set (table, key, fieldName) members })

/-- `mark_contribution`: whether the marker is new. -/
def markContribution (store : DurableStore) (sessionId : SessionId) (operatorId : OperatorId)
    (epoch : Epoch) : Except OrchestrationError Bool × DurableStore :=
  match store.guardEpoch (contributionScope sessionId) epoch with
  | .error error => (.error error, store)
  | .ok store =>
    if (sessionId, operatorId) ∈ store.contributions then
      (.ok false, store)
    else
      (.ok true,
        { store with contributions := insert (sessionId, operatorId) store.contributions })

/-- `is_contribution_marked`. -/
def isContributionMarked (store : DurableStore) (sessionId : SessionId)
    (operatorId : OperatorId) : Bool :=
  (sessionId, operatorId) ∈ store.contributions

/-- `clear_contribution`. It is not fenced. -/
def clearContribution (store : DurableStore) (sessionId : SessionId)
    (operatorId : OperatorId) : DurableStore :=
  { store with contributions := store.contributions.erase (sessionId, operatorId) }

/-! ### The fence of a call -/

/-- The two guarded writes an aggregator makes to a shared key. -/
inductive Call where
  | upsert (table key : String) (document : Document) (expectedVersion : ℕ)
      (status : Option String) (updatedAt : Option Timestamp)
  | addToSet (table key fieldName value : String)

/-- The scope a call is fenced in. -/
def Call.scope : Call → String
  | .upsert table key _ _ _ _ => keyScope table key
  | .addToSet table key _ _ => keyScope table key

/-- The call, made with an epoch. -/
def perform (store : DurableStore) (epoch : Epoch) :
    Call → Except OrchestrationError ℕ × DurableStore
  | .upsert table key document expectedVersion status updatedAt =>
    store.upsert table key document expectedVersion epoch status updatedAt
  | .addToSet table key fieldName value => store.addToSet table key fieldName value epoch

/-- Whether a call ended in a `StaleEpochError`. -/
def isStale {α : Type} : Except OrchestrationError α → Bool
  | .error error => error.isStaleEpoch
  | .ok _ => false

variable {store : DurableStore} {scope : String} {epoch : Epoch}

theorem guardEpoch_of_lt (h : epoch < store.fence scope) :
  store.guardEpoch scope epoch
    = .error (.staleEpoch s!"epoch {epoch} is stale for {pyRepr scope}")
  := by
  rw [guardEpoch, if_pos h]

theorem guardEpoch_of_le (h : store.fence scope ≤ epoch) :
  store.guardEpoch scope epoch = .ok { store with maxEpoch := store.maxEpoch.set scope epoch }
  := by
  rw [guardEpoch, if_neg (Nat.not_lt.mpr h)]

/-- Accepting an epoch in a scope moves the scope's fence to it, and no other fence. -/
theorem fence_set (store : DurableStore) (scope scope' : String) (epoch : Epoch) :
  fence { store with maxEpoch := store.maxEpoch.set scope epoch } scope'
    = if scope = scope' then epoch else store.fence scope'
  := by
  simp only [fence, Dict.get?_set]
  split
  · rfl
  · rfl

/-- A call below the fence of its scope raises a `StaleEpochError` and changes nothing. -/
theorem perform_of_lt {call : Call} (h : epoch < store.fence call.scope) :
  store.perform epoch call
    = (.error (.staleEpoch s!"epoch {epoch} is stale for {pyRepr call.scope}"), store)
  := by
  cases call with
  | upsert table key document expectedVersion status updatedAt =>
      simp only [perform, upsert, Call.scope] at h ⊢
      rw [guardEpoch_of_lt h]
  | addToSet table key fieldName value =>
      simp only [perform, addToSet, Call.scope] at h ⊢
      rw [guardEpoch_of_lt h]

/-- A call at or above the fence of its scope raises no `StaleEpochError`, and leaves the
fences as accepting its epoch does, also where it ends in a version conflict. -/
theorem perform_of_le {call : Call} (h : store.fence call.scope ≤ epoch) :
  isStale (store.perform epoch call).1 = false
    ∧ (store.perform epoch call).2.maxEpoch = store.maxEpoch.set call.scope epoch
  := by
  cases call with
  | upsert table key document expectedVersion status updatedAt =>
      simp only [perform, upsert, Call.scope] at h ⊢
      rw [guardEpoch_of_le h]
      simp only
      split
      · exact ⟨rfl, rfl⟩
      · exact ⟨rfl, rfl⟩
  | addToSet table key fieldName value =>
      simp only [perform, addToSet, Call.scope] at h ⊢
      rw [guardEpoch_of_le h]
      exact ⟨rfl, rfl⟩

/-- A call is rejected as stale exactly when its epoch is below the fence of its scope. -/
theorem isStale_perform_iff {call : Call} :
  isStale (store.perform epoch call).1 = true ↔ epoch < store.fence call.scope
  := by
  rcases Nat.lt_or_ge epoch (store.fence call.scope) with hlt | hle
  · rw [perform_of_lt hlt]
    exact iff_of_true rfl hlt
  · rw [(perform_of_le hle).1]
    exact iff_of_false Bool.false_ne_true (Nat.not_lt.mpr hle)

/-- A call moves the fence of its scope as an attempt with its epoch, and no other fence. -/
theorem fence_perform (store : DurableStore) (epoch : Epoch) (call : Call) (scope : String) :
  (store.perform epoch call).2.fence scope
    = if call.scope = scope then Fence.attempt (store.fence scope) epoch
      else store.fence scope
  := by
  rw [Fence.attempt_eq_max]
  rcases Nat.lt_or_ge epoch (store.fence call.scope) with hlt | hle
  · rw [perform_of_lt hlt]
    split
    · rename_i hscope
      rw [← hscope, max_eq_left hlt.le]
    · rfl
  · have hfence := fence_set store call.scope scope epoch
    rw [fence, (perform_of_le hle).2]
    rw [fence] at hfence
    rw [hfence]
    split
    · rename_i hscope
      rw [← hscope, max_eq_right hle]
    · rfl

/-! ### What an accepted call writes -/

/-- A call that is accepted writes something new: the document at the version it expects, or a
value that is not in the set. -/
def Writes (store : DurableStore) : Call → Prop
  | .upsert table key _ expectedVersion _ _ => store.versionOf table key = expectedVersion
  | .addToSet table key fieldName value =>
    value ∉ (store.sets.get? (table, key, fieldName)).getD ∅

/-- An upsert that is accepted at another version than it expects leaves the documents. -/
theorem upsert_of_ne {table key : String} {document : Document} {expectedVersion : ℕ}
    {status : Option String} {updatedAt : Option Timestamp}
    (h : store.fence (keyScope table key) ≤ epoch)
    (hversion : store.versionOf table key ≠ expectedVersion) :
  (store.upsert table key document expectedVersion epoch status updatedAt).2
    = { store with maxEpoch := store.maxEpoch.set (keyScope table key) epoch }
  := by
  rw [upsert, guardEpoch_of_le h]
  apply congrArg Prod.snd (if_pos _)
  exact hversion

/-- An upsert that is accepted at the version it expects writes the next one. -/
theorem upsert_of_eq {table key : String} {document : Document} {expectedVersion : ℕ}
    {status : Option String} {updatedAt : Option Timestamp}
    (h : store.fence (keyScope table key) ≤ epoch)
    (hversion : store.versionOf table key = expectedVersion) :
  (store.upsert table key document expectedVersion epoch status updatedAt).2
    = { store with
        maxEpoch := store.maxEpoch.set (keyScope table key) epoch
        documents := store.documents.set (table, key)
          ⟨document, store.versionOf table key + 1, status, updatedAt⟩ }
  := by
  rw [upsert, guardEpoch_of_le h]
  apply congrArg Prod.snd (if_neg _)
  rw [not_not]
  exact hversion

/-- An accepted addition writes the set with the value. -/
theorem addToSet_of_le {table key fieldName value : String}
    (h : store.fence (keyScope table key) ≤ epoch) :
  (store.addToSet table key fieldName value epoch).2
    = { store with
        maxEpoch := store.maxEpoch.set (keyScope table key) epoch
        sets := store.sets.set (table, key, fieldName)
          (insert value ((store.sets.get? (table, key, fieldName)).getD ∅)) }
  := by
  rw [addToSet, guardEpoch_of_le h]

/-- No call touches the contribution markers. -/
theorem contributions_perform (store : DurableStore) (epoch : Epoch) (call : Call) :
  (store.perform epoch call).2.contributions = store.contributions
  := by
  rcases Nat.lt_or_ge epoch (store.fence call.scope) with hlt | hle
  · rw [perform_of_lt hlt]
  · cases call with
    | upsert table key document expectedVersion status updatedAt =>
        rw [perform]
        by_cases hversion : store.versionOf table key = expectedVersion
        · rw [upsert_of_eq hle hversion]
        · rw [upsert_of_ne hle hversion]
    | addToSet table key fieldName value => rw [perform, addToSet_of_le hle]

/-- An accepted call leaves the documents and the sets as they were exactly when it writes
nothing new. -/
theorem perform_eq_iff {call : Call} (h : store.fence call.scope ≤ epoch) :
  (store.perform epoch call).2.documents = store.documents
      ∧ (store.perform epoch call).2.sets = store.sets
    ↔ ¬store.Writes call
  := by
  cases call with
  | upsert table key document expectedVersion status updatedAt =>
      rw [perform, Writes]
      by_cases hversion : store.versionOf table key = expectedVersion
      · rw [upsert_of_eq h hversion]
        apply iff_of_false
        · rintro ⟨hdocuments, -⟩
          have hget := congrArg (fun documents => (documents.get? (table, key)).map
            StoredDocument.version) hdocuments
          simp only [Dict.get?_set, if_true, Option.map_some, versionOf] at hget
          cases hcurrent : store.documents.get? (table, key) with
          | none =>
              rw [hcurrent] at hget
              cases hget
          | some current =>
              rw [hcurrent] at hget
              simp only [Option.map_some, Option.some.injEq] at hget
              omega
        · rw [not_not]
          exact hversion
      · rw [upsert_of_ne h hversion]
        apply iff_of_true
        · exact ⟨rfl, rfl⟩
        · exact hversion
  | addToSet table key fieldName value =>
      rw [perform, Writes, not_not, addToSet_of_le h]
      simp only [true_and]
      constructor
      · intro hsets
        have hget := congrArg (fun sets => sets.get? (table, key, fieldName)) hsets
        simp only [Dict.get?_set, if_true] at hget
        rw [← hget, Option.getD_some]
        apply Finset.mem_insert_self
      · intro hmem
        rw [Finset.insert_eq_of_mem hmem]
        cases hcurrent : store.sets.get? (table, key, fieldName) with
        | none =>
            rw [hcurrent] at hmem
            cases hmem
        | some members =>
            apply Dict.set_eq_self
            exact hcurrent

/-- A marker below the fence of its scope is rejected and changes nothing. -/
theorem markContribution_of_lt {sessionId : SessionId} {operatorId : OperatorId}
    (h : epoch < store.fence (contributionScope sessionId)) :
  (store.markContribution sessionId operatorId epoch).2 = store
  := by
  rw [markContribution, guardEpoch_of_lt h]

/-- A marker that is accepted is there afterwards. -/
theorem markContribution_of_le {sessionId : SessionId} {operatorId : OperatorId}
    (h : store.fence (contributionScope sessionId) ≤ epoch) :
  (store.markContribution sessionId operatorId epoch).2
    = { store with
        maxEpoch := store.maxEpoch.set (contributionScope sessionId) epoch
        contributions := insert (sessionId, operatorId) store.contributions }
  := by
  rw [markContribution, guardEpoch_of_le h]
  simp only
  split
  · rename_i hmem
    rw [Finset.insert_eq_of_mem hmem]
  · rfl

/-- A marker is fenced in its session's contribution scope. -/
theorem fence_markContribution (store : DurableStore) (sessionId : SessionId)
    (operatorId : OperatorId) (epoch : Epoch) (scope : String) :
  (store.markContribution sessionId operatorId epoch).2.fence scope
    = if contributionScope sessionId = scope then Fence.attempt (store.fence scope) epoch
      else store.fence scope
  := by
  rw [Fence.attempt_eq_max]
  rcases Nat.lt_or_ge epoch (store.fence (contributionScope sessionId)) with hlt | hle
  · rw [markContribution_of_lt hlt]
    split
    · rename_i hscope
      rw [← hscope, max_eq_left hlt.le]
    · rfl
  · rw [markContribution_of_le hle]
    apply (fence_set store _ scope epoch).trans
    split
    · rename_i hscope
      rw [← hscope, max_eq_right hle]
    · rfl

/-- No call lowers a fence. -/
theorem le_fence_perform (store : DurableStore) (epoch : Epoch) (call : Call)
    (scope : String) :
  store.fence scope ≤ (store.perform epoch call).2.fence scope
  := by
  rw [fence_perform]
  split
  · apply Fence.le_attempt
  · rfl

/-- No marker lowers a fence. -/
theorem le_fence_markContribution (store : DurableStore) (sessionId : SessionId)
    (operatorId : OperatorId) (epoch : Epoch) (scope : String) :
  store.fence scope ≤ (store.markContribution sessionId operatorId epoch).2.fence scope
  := by
  rw [fence_markContribution]
  split
  · apply Fence.le_attempt
  · rfl

/-- A contribution that was accepted is marked, and no other marker has changed. -/
theorem isContributionMarked_markContribution {sessionId : SessionId}
    {operatorId operatorId' : OperatorId} {new : Bool} {store' : DurableStore}
    (h : store.markContribution sessionId operatorId epoch = (.ok new, store')) :
  store'.isContributionMarked sessionId operatorId' = true
    ↔ operatorId' = operatorId ∨ store.isContributionMarked sessionId operatorId' = true
  := by
  have hle : store.fence (contributionScope sessionId) ≤ epoch := by
    apply Nat.not_lt.mp
    intro hlt
    rw [markContribution, guardEpoch_of_lt hlt] at h
    cases h
  have hstore : (store.markContribution sessionId operatorId epoch).2 = store' := by
    rw [h]
  rw [← hstore, markContribution_of_le hle]
  simp [isContributionMarked]

/-- A cleared contribution is unmarked, and no other marker has changed. -/
theorem isContributionMarked_clearContribution {sessionId : SessionId}
    {operatorId operatorId' : OperatorId} :
  (store.clearContribution sessionId operatorId).isContributionMarked sessionId operatorId' = true
    ↔ operatorId' ≠ operatorId ∧ store.isContributionMarked sessionId operatorId' = true
  := by
  simp [isContributionMarked, clearContribution]

/-- The durable store as a machine with fenced calls. -/
def fenced : Fence.System DurableStore Call String where
  initial := initial
  scope := Call.scope
  perform := fun store epoch call => (store.perform epoch call).2
  rejected := fun store epoch call => isStale (store.perform epoch call).1
  fence := fence
  fence_initial := fun _ => rfl
  rejected_iff_lt := fun _ _ _ => isStale_perform_iff
  fence_perform := fence_perform

end DurableStore

end Orcastork
