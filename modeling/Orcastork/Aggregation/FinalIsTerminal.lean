import Orcastork.Aggregation.Helpers
import Orcastork.Library.TransitionSystem

/-!
# A final document stays final

The check that a document is not final is made on the value that was read, the write comes
later under the version that was read. Both stores keep the promise this rests on, that a
write either leaves the document or replaces one at the version it expects (`VersionGuarded`); so
the document a write replaces is the one its call has read (`Invariant`), and nothing is lost
between the two (`final_is_terminal`).
-/

namespace Orcastork

/-! ### What the helpers rely on -/

/-- A document with the status of a final one. -/
def IsFinal (existing : Option StoredDocument) : Prop :=
  existing.bind StoredDocument.status = some AggregateStatus.final.value

/-- What a write has done to the document, by its progress: one that ended without an error
has replaced a document at the expected version by its own, at the next version. -/
def WriteProgress.Replaced {Stage : Type} (upsert : UpsertCall) (before after : Option StoredDocument)
    (Staged : Stage → Prop) : WriteProgress Stage → Prop
  | .more stage => Staged stage ∧ after = before
  | .finished (.error _) => after = before
  | .finished (.ok version) =>
    Optimistic.versionOf StoredDocument.version before = upsert.expectedVersion
      ∧ version = upsert.expectedVersion + 1
      ∧ after = some ⟨upsert.document, version, upsert.status, upsert.updatedAt⟩

/-- The document of a store, and the promise that its version guards the writes of it. -/
structure VersionGuarded {State Stage : Type} (port : DurablePort State Stage) where
  /-- The states in which the document can be read. -/
  Sound : State → Prop
  contents : State → Option StoredDocument
  /-- The stages a write can be at. -/
  Staged : UpsertCall → Stage → Prop
  sound_initial : Sound port.initial
  contents_initial : contents port.initial = none
  read : ∀ {state}, Sound state → port.read state = .ok (contents state)
  staged_start : ∀ upsert, Staged upsert port.start
  operate : ∀ {state upsert stage}, Sound state → Staged upsert stage →
    Sound (port.operate state upsert stage).1
      ∧ (port.operate state upsert stage).2.Replaced upsert (contents state)
          (contents (port.operate state upsert stage).1) (Staged upsert)

/-- The version of a document in memory. -/
theorem DurableStore.versionOf_eq (store : DurableStore) (table key : String) :
  store.versionOf table key
    = Optimistic.versionOf StoredDocument.version (store.read table key)
  := by
  rw [versionOf, read]
  cases store.documents.get? (table, key) with
  | none => rfl
  | some _ => rfl

/-- The in-memory store guards its writes. -/
def DurableStore.guarded (table key : String) :
    VersionGuarded (DurableStore.port table key) where
  Sound := fun _ => True
  contents := fun store => store.read table key
  Staged := fun _ _ => True
  sound_initial := trivial
  contents_initial := rfl
  read := fun _ => rfl
  staged_start := fun _ => trivial
  operate := by
    intro store upsert stage _ _
    simp only [port, true_and]
    rw [DurableStore.upsert]
    rcases Nat.lt_or_ge upsert.epoch (store.fence (keyScope table key)) with hlt | hle
    · rw [guardEpoch_of_lt hlt]
      rfl
    · rw [guardEpoch_of_le hle]
      simp only
      split
      · rfl
      · rename_i hversion
        have hexpected := not_not.mp hversion
        refine ⟨?_, ?_, ?_⟩
        · rw [← hexpected, versionOf_eq]
          rfl
        · rw [hexpected]
        · apply (Dict.get?_set _ _ _ _).trans
          rw [if_pos rfl, hexpected]

namespace MongoDurableStore

variable {table key : String}

/-- The record of a document, if there is one, has the fields of a document. -/
def HasDocument (database : Database) (table key : String) : Prop :=
  ∀ record, database.data.get? (table, key) = some record →
    ∃ document version, record.document = some document ∧ record.version = some version

/-- The document of a record. -/
def documentOf (record : Record) : Option StoredDocument :=
  record.document.bind (fun document => record.version.map (fun version =>
    ⟨document, version, record.status, record.updatedAt⟩))

/-- The stages of an upsert. It inserts only where it expects no document. -/
def Staged (upsert : UpsertCall) : Stage → Prop
  | .guard | .find | .update => True
  | .insert => upsert.expectedVersion = 0
  | .addToSet | .mark | .finished _ => False

/-- The document of a database, read off its record. -/
def documentAt (database : Database) (table key : String) : Option StoredDocument :=
  (database.data.get? (table, key)).bind documentOf

theorem read_eq {database : Database} (h : HasDocument database table key) :
  database.read table key = .ok (documentAt database table key)
  := by
  rw [Database.read, documentAt]
  cases hrecord : database.data.get? (table, key) with
  | none => rfl
  | some record =>
      obtain ⟨document, version, hdocument, hversion⟩ := h record hrecord
      simp only [hdocument, hversion, Option.bind_some, documentOf, Option.map_some]

/-- The version of the document is that of its record. -/
theorem versionOf_documentAt {database : Database} {record : Record}
    (h : HasDocument database table key)
    (hrecord : database.data.get? (table, key) = some record) :
  record.version
    = some (Optimistic.versionOf StoredDocument.version (documentAt database table key))
  := by
  obtain ⟨document, version, hdocument, hversion⟩ := h record hrecord
  simp only [documentAt, hrecord, Option.bind_some, documentOf, hdocument, hversion,
    Option.map_some, Optimistic.versionOf]

/-- A write of a record leaves a document. -/
theorem hasDocument_upserted (database : Database) (document : Document) (version : ℕ)
    (epoch : Epoch) (status : Option String) (updatedAt : Option Timestamp)
    (members : Option (Finset String)) :
  let written : Database := { database with
    data := database.data.set (table, key)
      (upserted document version epoch status updatedAt members) }
  HasDocument written table key
    ∧ documentAt written table key = some ⟨document, version, status, updatedAt⟩
  := by
  intro written
  have hget : written.data.get? (table, key)
      = some (upserted document version epoch status updatedAt members) := by
    apply (Dict.get?_set _ _ _ _).trans
    rw [if_pos rfl]
  constructor
  · intro record hrecord
    rw [hget] at hrecord
    cases hrecord
    exact ⟨document, version, rfl, rfl⟩
  · rw [documentAt, hget]
    rfl

/-- The Mongo store guards its writes. -/
def guarded (table key : String) : VersionGuarded (port table key) where
  Sound := fun database => HasDocument database table key
  contents := fun database => documentAt database table key
  Staged := Staged
  sound_initial := by
    intro record h
    cases h
  contents_initial := rfl
  read := read_eq
  staged_start := fun _ => trivial
  operate := by
    intro database upsert stage hsound hstaged
    simp only [port]
    cases stage with
    | guard =>
        rcases Nat.lt_or_ge upsert.epoch (database.fence (table ++ "-fencing", key))
          with hlt | hle
        · rw [operate_guard_of_lt hlt]
          exact ⟨hsound, rfl⟩
        · rw [operate_guard_of_le hle]
          exact ⟨hsound, trivial, rfl⟩
    | find =>
        simp only [operate, findStage]
        cases hrecord : database.data.get? (table, key) with
        | none =>
            simp only
            split
            · exact ⟨hsound, rfl⟩
            · rename_i hexpected
              exact ⟨hsound, not_not.mp hexpected, rfl⟩
        | some record =>
            simp only [versionOf_documentAt hsound hrecord]
            split
            · exact ⟨hsound, rfl⟩
            · exact ⟨hsound, trivial, rfl⟩
    | insert =>
        rw [operate]
        cases hrecord : database.data.get? (table, key) with
        | none =>
            obtain ⟨hsound', hwritten⟩ := @hasDocument_upserted table key database
              upsert.document 1 upsert.epoch upsert.status upsert.updatedAt none
            refine ⟨hsound', ?_, ?_, hwritten⟩
            · rw [documentAt, hrecord]
              exact hstaged.symm
            · rw [show upsert.expectedVersion = 0 from hstaged]
              rfl
        | some _ => exact ⟨hsound, rfl⟩
    | update =>
        rw [operate]
        cases hrecord : database.data.get? (table, key) with
        | none => exact ⟨hsound, rfl⟩
        | some record =>
            simp only
            split
            · rename_i hversion
              obtain ⟨hsound', hwritten⟩ := @hasDocument_upserted table key database
                upsert.document (upsert.expectedVersion + 1) upsert.epoch upsert.status
                upsert.updatedAt record.members
              refine ⟨hsound', ?_, rfl, hwritten⟩
              rw [versionOf_documentAt hsound hrecord] at hversion
              exact Option.some.inj hversion
            · exact ⟨hsound, rfl⟩
    | addToSet => cases hstaged
    | mark => cases hstaged
    | finished _ => cases hstaged

end MongoDurableStore

/-! ### Calls in between -/

namespace Helpers

open Optimistic

variable {State Stage : Type} {port : DurablePort State Stage}

/-- Whether the document that a store returns is final. -/
def FinalIn (port : DurablePort State Stage) (store : State) : Prop :=
  ∃ existing, port.read store = .ok existing ∧ IsFinal existing

/-- The promise of the helpers: what holds of every run of their calls. -/
structure FinalIsTerminal (port : DurablePort State Stage) : Prop where
  /-- A document that is final is final ever after. -/
  terminal : ∀ {before after : List Action} {world world' : World State Stage},
    TransitionSystem.run (step port) (initial port) before = some world →
      TransitionSystem.run (step port) world after = some world' →
        FinalIn port world.shared.store → FinalIn port world'.shared.store
  /-- The writes that succeed return the versions from `1` on, one after another. -/
  consecutive : ∀ {actions : List Action} {world : World State Stage},
    TransitionSystem.run (step port) (initial port) actions = some world →
      world.shared.versions = List.range' 1 world.shared.versions.length
  /-- A write that succeeds replaces the document that its call has read. -/
  replaced : ∀ {actions : List Action} {world world' : World State Stage} {i version : ℕ}
    {now : Timestamp} {helpers : AggregationHelpers} {existing : Option StoredDocument}
    {upsert : UpsertCall} {stage : Stage},
    TransitionSystem.run (step port) (initial port) actions = some world →
      step port world (.move i now) = some world' →
        world.points[i]? = some (.writing helpers existing upsert stage) →
          world'.points[i]? = some (.returned version) →
            port.read world.shared.store = .ok existing
              ∧ version = versionOf StoredDocument.version existing + 1
              ∧ port.read world'.shared.store = .ok (some
                  ⟨upsert.document, version, some helpers.status.value, upsert.updatedAt⟩)
  /-- A call that returns has stored its document at the version it returns, an interim one over a
  document that was not final; or it is an interim call that has found a final document at that
  version, and nothing is changed. -/
  returned : ∀ {actions : List Action} {world world' : World State Stage} {i version : ℕ}
    {now : Timestamp} {helpers : AggregationHelpers} {document : Document},
    TransitionSystem.run (step port) (initial port) actions = some world →
      step port world (.move i now) = some world' →
        (requests actions)[i]? = some (helpers, document) →
          world'.points[i]? = some (.returned version) →
            ∃ existing, port.read world.shared.store = .ok existing
              ∧ ((helpers.isFinal = false ∧ IsFinal existing
                    ∧ version = versionOf StoredDocument.version existing
                    ∧ world'.shared = world.shared)
                ∨ ((helpers.isFinal = false → ¬IsFinal existing)
                    ∧ version = versionOf StoredDocument.version existing + 1
                    ∧ ∃ updatedAt, port.read world'.shared.store = .ok (some
                        ⟨document, version, some helpers.status.value, updatedAt⟩)))

variable (guarded : VersionGuarded port)

/-- Between its read and the end of its write a call has observed the document it read, and
expects its version; an interim call has read one that is not final. -/
structure Writing (now : Option StoredDocument) (helpers : AggregationHelpers)
    (existing : Option StoredDocument) (upsert : UpsertCall) (stage : Stage) : Prop where
  observed : Observed StoredDocument.version existing now
  staged : guarded.Staged upsert stage
  expected : upsert.expectedVersion = versionOf StoredDocument.version existing
  status : upsert.status = some helpers.status.value
  interim : helpers.isFinal = false → ¬IsFinal existing

/-- What holds of a call, given the document. -/
def Point.Holds (now : Option StoredDocument) : Point Stage → Prop
  | .writing helpers existing upsert stage =>
    Writing guarded now helpers existing upsert stage
  | _ => True

/-- The versions returned are those up to the version of the document. -/
structure Invariant (world : World State Stage) : Prop where
  sound : guarded.Sound world.shared.store
  versions : world.shared.versions
    = List.range' 1 (versionOf StoredDocument.version (guarded.contents world.shared.store))
  holds : ∀ (i : ℕ) point, world.points[i]? = some point →
    point.Holds guarded (guarded.contents world.shared.store)

/-- What a step does to the document: nothing, or it ends the write of a call with success. -/
inductive Moved (shared shared' : Shared State) : Point Stage → Point Stage → Prop
  | kept {point point' : Point Stage}
      (hcontents : guarded.contents shared'.store = guarded.contents shared.store)
      (hversions : shared'.versions = shared.versions)
      (hholds : point'.Holds guarded (guarded.contents shared.store))
      (hreturned : ∀ version, point' = .returned version → shared' = shared
        ∧ version = versionOf StoredDocument.version (guarded.contents shared.store)
        ∧ IsFinal (guarded.contents shared.store)
        ∧ ∃ helpers document, point = .reading helpers document ∧ helpers.isFinal = false) :
      Moved shared shared' point point'
  | wrote {helpers : AggregationHelpers} {existing : Option StoredDocument} {upsert : UpsertCall}
      {stage : Stage} {version : ℕ}
      (hexisting : guarded.contents shared.store = existing)
      (hversion : version = versionOf StoredDocument.version existing + 1)
      (hcontents : guarded.contents shared'.store = some
        ⟨upsert.document, version, some helpers.status.value, upsert.updatedAt⟩)
      (hinterim : helpers.isFinal = false → ¬IsFinal existing)
      (hversions : shared'.versions = shared.versions ++ [version]) :
      Moved shared shared' (.writing helpers existing upsert stage) (.returned version)

variable {guarded}

theorem afterRead_holds {helpers : AggregationHelpers} {document : Document} {now : Timestamp}
    {existing : Option StoredDocument} :
  (afterRead port helpers document now existing).Holds guarded existing
  := by
  rw [afterRead]
  split
  · trivial
  · rename_i hfinal
    constructor
    · apply Observed.refl
    · apply guarded.staged_start
    · rfl
    · rfl
    · intro hinterim hexisting
      exact hfinal ⟨hinterim, hexisting⟩

/-- A call that returns once it has read is an interim one, and has read a final document. -/
theorem afterRead_eq_returned {helpers : AggregationHelpers} {document : Document}
    {now : Timestamp} {existing : Option StoredDocument} {version : ℕ}
    (h : afterRead port helpers document now existing = .returned version) :
  helpers.isFinal = false ∧ IsFinal existing
    ∧ version = versionOf StoredDocument.version existing
  := by
  rw [afterRead] at h
  split at h
  · rename_i hfinal
    cases h
    use hfinal.1, hfinal.2
  · cases h

theorem moved_of_move {shared shared' : Shared State} {point point' : Point Stage}
    {now : Timestamp} (hsound : guarded.Sound shared.store)
    (hholds : point.Holds guarded (guarded.contents shared.store))
    (h : move port shared point now = some (shared', point')) :
  guarded.Sound shared'.store ∧ Moved guarded shared shared' point point'
  := by
  cases point with
  | reading helpers document =>
      rw [move, guarded.read hsound] at h
      cases h
      refine ⟨hsound, .kept rfl rfl afterRead_holds ?_⟩
      intro version hreturned
      obtain ⟨hinterim, hfinal, hversion⟩ := afterRead_eq_returned hreturned
      exact ⟨rfl, hversion, hfinal, helpers, document, rfl, hinterim⟩
  | writing helpers existing upsert stage =>
      obtain ⟨hsound', hprogress⟩ := guarded.operate hsound hholds.staged
      rw [move] at h
      generalize port.operate shared.store upsert stage = result at h hsound' hprogress
      obtain ⟨store, progress⟩ := result
      cases progress with
      | more stage' =>
          cases h
          obtain ⟨hstaged, hcontents⟩ := hprogress
          refine ⟨hsound', .kept hcontents rfl ?_ ?_⟩
          · exact { hholds with staged := hstaged }
          · intro version hreturned
            cases hreturned
      | finished result =>
          cases result with
          | error error =>
              cases h
              refine ⟨hsound', .kept hprogress rfl trivial ?_⟩
              intro version hreturned
              cases hreturned
          | ok version =>
              cases h
              obtain ⟨hexpected, hversion, hcontents⟩ := hprogress
              have hexisting := hholds.observed.eq (hholds.expected.symm.trans hexpected.symm)
              refine ⟨hsound', .wrote hexisting.symm ?_ ?_ hholds.interim rfl⟩
              · rw [hversion, hholds.expected]
              · rw [← hholds.status]
                exact hcontents
  | returned version => cases h
  | raised error => cases h

/-- The next version follows those before it. -/
theorem versions_concat {contents : Option StoredDocument} {version : ℕ}
    (hversion : version = versionOf StoredDocument.version contents + 1) :
  List.range' 1 (versionOf StoredDocument.version contents) ++ [version] = List.range' 1 version
  := by
  rw [hversion, List.range'_1_concat, Nat.add_comm]

/-- What a call holds is not lost when another call writes. -/
theorem Point.Holds.raise {now next : Option StoredDocument} {point : Point Stage}
    (h : point.Holds guarded now)
    (hraise : versionOf StoredDocument.version now < versionOf StoredDocument.version next) :
  point.Holds guarded next
  := by
  cases point with
  | writing helpers existing upsert stage => exact { h with observed := h.observed.raise hraise }
  | _ => trivial

/-- A step of the system is a new call, or what a step of one call does. -/
theorem step_eq_some {world world' : World State Stage} {action : Action} :
  step port world action = some world'
    ↔ (∃ helpers document, action = .call helpers document
        ∧ world' = world.start (.reading helpers document))
      ∨ ∃ i now point shared' point', action = .move i now ∧ world.points[i]? = some point
        ∧ move port world.shared point now = some (shared', point')
        ∧ world' = ⟨shared', world.points.set i point'⟩
  := by
  cases action with
  | call helpers document =>
      simp only [step, Option.some.injEq, Action.call.injEq, reduceCtorEq, false_and,
        exists_false, or_false]
      constructor
      · rintro rfl
        exact ⟨helpers, document, ⟨rfl, rfl⟩, rfl⟩
      · rintro ⟨_, _, ⟨rfl, rfl⟩, rfl⟩
        rfl
  | move i now =>
      simp only [step, Threads.advance_eq_some, reduceCtorEq, false_and, exists_false, false_or,
        Action.move.injEq]
      constructor
      · rintro ⟨point, shared', point', hpoint, hmove, rfl⟩
        exact ⟨i, now, point, shared', point', ⟨rfl, rfl⟩, hpoint, hmove, rfl⟩
      · rintro ⟨_, _, point, shared', point', ⟨rfl, rfl⟩, hpoint, hmove, rfl⟩
        exact ⟨point, shared', point', hpoint, hmove, rfl⟩

theorem invariant_initial :
  Invariant guarded (initial port)
  := by
  constructor
  · exact guarded.sound_initial
  · rw [initial, guarded.contents_initial]
    rfl
  · intro i point hpoint
    cases hpoint

/-- A step of one call keeps the invariant. -/
theorem Invariant.moved {world : World State Stage} {i : ℕ} {point point' : Point Stage}
    {shared' : Shared State} (h : Invariant guarded world) (hpoint : world.points[i]? = some point)
    (hsound : guarded.Sound shared'.store)
    (hmoved : Moved guarded world.shared shared' point point') :
  Invariant guarded ⟨shared', world.points.set i point'⟩
  := by
  cases hmoved with
  | kept hcontents hversions hholds _ =>
      constructor
      · exact hsound
      · rw [hversions, hcontents, h.versions]
      · rw [hcontents]
        exact Threads.forall_set hpoint h.holds hholds (fun _ _ _ _ hother => hother)
  | wrote hexisting hversion hcontents _ hversions =>
      constructor
      · exact hsound
      · rw [hversions, hcontents, h.versions, hexisting]
        exact versions_concat hversion
      · rw [hcontents]
        apply Threads.forall_set (Q := Point.Holds guarded _) hpoint h.holds
        · trivial
        · intro j other _ _ hother
          apply hother.raise
          rw [hexisting]
          exact Nat.lt_of_lt_of_eq (Nat.lt_succ_self _) hversion.symm

theorem invariant_step {world world' : World State Stage} {action : Action}
    (h : Invariant guarded world) (hstep : step port world action = some world') :
  Invariant guarded world'
  := by
  rcases step_eq_some.mp hstep with
    ⟨helpers, document, -, rfl⟩ | ⟨i, now, point, shared', point', -, hpoint, hmove, rfl⟩
  · constructor
    · exact h.sound
    · exact h.versions
    · intro i point hpoint
      rcases Threads.getElem?_start_eq_some.mp hpoint with hpoint | ⟨-, rfl⟩
      · exact h.holds i point hpoint
      · trivial
  · obtain ⟨hsound, hmoved⟩ := moved_of_move h.sound (h.holds i point hpoint) hmove
    exact h.moved hpoint hsound hmoved

theorem finalIn_iff {store : State} (hsound : guarded.Sound store) :
  FinalIn port store ↔ IsFinal (guarded.contents store)
  := by
  rw [FinalIn, guarded.read hsound]
  simp only [Except.ok.injEq, exists_eq_left']

/-- A step of one call leaves a final document final. -/
theorem Moved.isFinal {shared shared' : Shared State} {point point' : Point Stage}
    (h : Moved guarded shared shared' point point')
    (hfinal : IsFinal (guarded.contents shared.store)) :
  IsFinal (guarded.contents shared'.store)
  := by
  cases h with
  | kept hcontents _ _ _ =>
      rw [hcontents]
      exact hfinal
  | @wrote helpers _ _ _ _ hexisting _ hcontents hinterim _ =>
      rw [hexisting] at hfinal
      -- An interim call would have read that the document is final.
      have hhelpers : helpers.isFinal = true := by
        rw [← Bool.not_eq_false]
        intro hnot
        exact hinterim hnot hfinal
      rw [hcontents, IsFinal, Option.bind_some, AggregationHelpers.status, hhelpers, if_pos rfl]

/-- The step of a call that takes it from one point to another. -/
theorem moved_of_step {world world' : World State Stage} {i : ℕ} {now : Timestamp}
    {point point' : Point Stage} (h : Invariant guarded world)
    (hstep : step port world (.move i now) = some world') (hpoint : world.points[i]? = some point)
    (hpoint' : world'.points[i]? = some point') :
  guarded.Sound world'.shared.store ∧ Moved guarded world.shared world'.shared point point'
  := by
  rcases step_eq_some.mp hstep with ⟨_, _, haction, -⟩ |
    ⟨_, _, found, shared', found', ⟨rfl, rfl⟩, hfound, hmove, rfl⟩
  · cases haction
  · cases hfound.symm.trans hpoint
    cases (Threads.getElem?_set_self hpoint).symm.trans hpoint'
    exact moved_of_move h.sound (h.holds i point hpoint) hmove

/-- A step of a call is one of a call that was made. -/
theorem exists_point_of_step {world world' : World State Stage} {i : ℕ} {now : Timestamp}
    (hstep : step port world (.move i now) = some world') :
  ∃ point, world.points[i]? = some point
  := by
  rcases step_eq_some.mp hstep with ⟨_, _, haction, -⟩ |
    ⟨_, _, point, _, _, ⟨rfl, rfl⟩, hpoint, -, -⟩
  · cases haction
  · use point

/-- What a call that has not ended was made with. -/
def Point.request? : Point Stage → Option (AggregationHelpers × Document)
  | .reading helpers document => some (helpers, document)
  | .writing helpers _ upsert _ => some (helpers, upsert.document)
  | .returned _ => none
  | .raised _ => none

/-- A call goes on with what it was made with. -/
theorem request?_move {shared shared' : Shared State} {point point' : Point Stage}
    {now : Timestamp} (h : move port shared point now = some (shared', point')) :
  ∀ request ∈ point'.request?, request ∈ point.request?
  := by
  intro request hrequest
  cases point with
  | reading helpers document =>
      rw [move] at h
      split at h
      · cases h
        cases hrequest
      · cases h
        rw [afterRead] at hrequest
        split at hrequest
        · cases hrequest
        · apply hrequest
  | writing helpers existing upsert stage =>
      rw [move] at h
      split at h
      · cases h
        apply hrequest
      · cases h
        cases hrequest
      · cases h
        cases hrequest
  | returned version => cases h
  | raised error => cases h

/-- The calls have what they were made with. -/
structure Requested (made : List (AggregationHelpers × Document)) (world : World State Stage) :
    Prop where
  length : world.points.length = made.length
  request : ∀ (i : ℕ) point, world.points[i]? = some point →
    ∀ request ∈ point.request?, made[i]? = some request

theorem requested_step {actions : List Action} {world world' : World State Stage} {action : Action}
    (h : Requested (requests actions) world) (hstep : step port world action = some world') :
  Requested (requests (actions ++ [action])) world'
  := by
  rcases step_eq_some.mp hstep with
    ⟨helpers, document, rfl, rfl⟩ | ⟨i, now, point, shared', point', rfl, hpoint, hmove, rfl⟩
  · have hrequests : requests (actions ++ [.call helpers document])
        = requests actions ++ [(helpers, document)] := by
      rw [requests, List.filterMap_append]
      rfl
    rw [hrequests]
    constructor
    · rw [List.length_append, List.length_singleton, ← h.length]
      apply List.length_append
    · intro i point hpoint request hrequest
      rcases Threads.getElem?_start_eq_some.mp hpoint with hpoint | ⟨hi, rfl⟩
      · have hbefore := h.request i point hpoint request hrequest
        rw [List.getElem?_append_left (List.getElem?_eq_some_iff.mp hbefore).1]
        apply hbefore
      · cases hrequest
        rw [hi, h.length]
        apply List.getElem?_concat_length
  · have hrequests : requests (actions ++ [.move i now]) = requests actions := by
      rw [requests, List.filterMap_append]
      apply List.append_nil
    rw [hrequests]
    constructor
    · rw [← h.length]
      apply List.length_set
    · intro j other hother request hrequest
      rcases (Threads.getElem?_set_eq_some hpoint).mp hother with ⟨rfl, rfl⟩ | ⟨-, hother⟩
      · apply h.request j point hpoint request (request?_move hmove request hrequest)
      · apply h.request j other hother request hrequest

theorem requested_run {actions : List Action} {world : World State Stage}
    (hrun : TransitionSystem.run (step port) (initial port) actions = some world) :
  ∀ (i : ℕ) point, world.points[i]? = some point →
    ∀ request ∈ point.request?, (requests actions)[i]? = some request
  := by
  have hinitial : Requested (requests []) (initial port) := by
    constructor
    · rfl
    · intro i point hpoint
      cases hpoint
  apply (TransitionSystem.run_history (P := fun actions world => Requested (requests actions) world)
    _ hinitial hrun).request
  intro taken world action world' h hstep
  apply requested_step h hstep

/-- Over a store whose versions guard its writes, a final document stays final, and no write
is lost. -/
theorem finalIsTerminal_of_guarded (guarded : VersionGuarded port) :
  FinalIsTerminal port
  := by
  have hreachable : ∀ {actions : List Action} {world : World State Stage},
      TransitionSystem.run (step port) (initial port) actions = some world →
        Invariant guarded world := fun hrun =>
    TransitionSystem.run_invariant (fun _ _ _ => invariant_step) invariant_initial hrun
  constructor
  · intro before after world world' hbefore hafter hfinal
    have hinvariant := hreachable hbefore
    rw [finalIn_iff hinvariant.sound] at hfinal
    obtain ⟨hinvariant', hfinal'⟩ := TransitionSystem.run_invariant
      (P := fun world => Invariant guarded world
        ∧ IsFinal (guarded.contents world.shared.store))
      (by
        rintro s action s' ⟨hs, hfinal⟩ hstep
        refine ⟨invariant_step hs hstep, ?_⟩
        rcases step_eq_some.mp hstep with
          ⟨_, _, -, rfl⟩ | ⟨i, now, point, shared', point', -, hpoint, hmove, rfl⟩
        · exact hfinal
        · exact (moved_of_move hs.sound (hs.holds i point hpoint) hmove).2.isFinal hfinal)
      ⟨hinvariant, hfinal⟩ hafter
    rw [finalIn_iff hinvariant'.sound]
    exact hfinal'
  · intro actions world hrun
    rw [(hreachable hrun).versions, List.length_range']
  · intro actions world world' i version now helpers existing upsert stage hrun hstep hpoint
      hpoint'
    have hinvariant := hreachable hrun
    obtain ⟨hsound', hmoved⟩ := moved_of_step hinvariant hstep hpoint hpoint'
    cases hmoved with
    | kept _ _ _ hreturned =>
        obtain ⟨-, -, -, _, _, hreading, -⟩ := hreturned version rfl
        cases hreading
    | wrote hexisting hversion hcontents _ _ =>
        rw [guarded.read hinvariant.sound, guarded.read hsound', hexisting, hcontents]
        exact ⟨rfl, hversion, rfl⟩
  · intro actions world world' i version now helpers document hrun hstep hrequest hpoint'
    have hinvariant := hreachable hrun
    obtain ⟨point, hpoint⟩ := exists_point_of_step hstep
    obtain ⟨hsound', hmoved⟩ := moved_of_step hinvariant hstep hpoint hpoint'
    have hrequested := requested_run hrun i point hpoint
    use guarded.contents world.shared.store, guarded.read hinvariant.sound
    cases hmoved with
    | kept _ _ _ hreturned =>
        left
        obtain ⟨hshared, hversion, hfinal, helpers', document', rfl, hinterim⟩ :=
          hreturned version rfl
        cases hrequest.symm.trans (hrequested _ rfl)
        exact ⟨hinterim, hfinal, hversion, hshared⟩
    | @wrote helpers' existing upsert stage _ hexisting hversion hcontents hinterim _ =>
        right
        cases hrequest.symm.trans (hrequested _ rfl)
        rw [hexisting]
        use hinterim, hversion, upsert.updatedAt
        rw [guarded.read hsound', hcontents]

/-- On both stores, whatever calls interleave on a document: once it is final it stays final,
its versions are consecutive, every write replaces the document its call has read, and a call that
returns has stored its own, unless it is an interim one that has read a final document. -/
theorem final_is_terminal (table key : String) :
  FinalIsTerminal (DurableStore.port table key)
    ∧ FinalIsTerminal (MongoDurableStore.port table key)
  := by
  constructor
  · exact finalIsTerminal_of_guarded (DurableStore.guarded table key)
  · exact finalIsTerminal_of_guarded (MongoDurableStore.guarded table key)

end Helpers

end Orcastork
