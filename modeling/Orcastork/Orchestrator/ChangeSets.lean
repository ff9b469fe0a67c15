import Orcastork.Adapters.Memory.StoreHistory
import Orcastork.Library.TransitionSystem
import Orcastork.Orchestrator.MirrorSimulation

/-!
# Change sets over a history

The history of a session is made of batches, written to the store or through a mirror of it.
A mirror may be rehydrated at any time; it then writes as the session's sole mutator, so it
is given up where another batch is written past it. Batches may be rejected.

Whatever the history, the change set since any earlier state is the difference of the two
snapshots (`change_sets_exact`).
-/

namespace Orcastork

namespace ChangeHistory

open SessionState

/-- A session in the store, and the mirror in use, if there is one. -/
structure World where
  store : SessionState
  mirror : Option SessionStateMirror

/-- What a history is made of. -/
inductive Action where
  | write (dataPoints : List BaseDataPoint) (epoch : Epoch)
  | rehydrate (sessionId : SessionId)
  | writeThrough (dataPoints : List BaseDataPoint) (epoch : Epoch)

/-- A session nothing was written to. -/
def initial : World := ⟨.initial, none⟩

def step (world : World) : Action → Option World
  | .write dataPoints epoch =>
    match world.store.write dataPoints epoch with
    | .error _ => some world
    | .ok (_, store) => some ⟨store, none⟩
  | .rehydrate sessionId =>
    some { world with mirror := some ((SessionStateMirror.initial sessionId).rehydrate world.store) }
  | .writeThrough dataPoints epoch =>
    world.mirror.map (fun mirror =>
      let (_, mirror, store) := mirror.write world.store dataPoints epoch
      ⟨store, some mirror⟩)

/-- The state is well formed, and a mirror in use agrees with it. -/
structure Invariant (world : World) : Prop where
  wellFormed : world.store.WellFormed
  mirror : ∀ mirror, world.mirror = some mirror → Agrees mirror world.store

/-- A step leaves the store as it is, or does to it what a write does. -/
theorem step_store {world world' : World} {action : Action} (h : Invariant world)
    (hstep : step world action = some world') :
  world'.store = world.store
    ∨ ∃ dataPoints epoch revision,
        world.store.write dataPoints epoch = .ok (revision, world'.store)
  := by
  cases action with
  | write dataPoints epoch =>
      rw [step] at hstep
      cases hwrite : world.store.write dataPoints epoch with
      | error error =>
          rw [hwrite] at hstep
          cases hstep
          left
          rfl
      | ok result =>
          rw [hwrite] at hstep
          cases hstep
          right
          exact ⟨dataPoints, epoch, result.1, hwrite⟩
  | rehydrate sessionId =>
      cases hstep
      left
      rfl
  | writeThrough dataPoints epoch =>
      obtain ⟨mirror, hmirror, hworld⟩ := Option.map_eq_some_iff.mp hstep
      have hagrees := h.mirror mirror hmirror
      cases hwrite : world.store.write dataPoints epoch with
      | error error =>
          rw [hagrees.write_error hwrite] at hworld
          left
          rw [← hworld]
      | ok result =>
          rw [(hagrees.write_ok hwrite).1] at hworld
          right
          refine ⟨dataPoints, epoch, result.1, ?_⟩
          rw [hwrite, ← hworld]

theorem invariant_initial :
  Invariant initial
  := by
  constructor
  · exact initial_wellFormed
  · intro mirror h
    cases h

theorem invariant_step {world world' : World} {action : Action} (h : Invariant world)
    (hstep : step world action = some world') :
  Invariant world'
  := by
  have hwellFormed : world'.store.WellFormed := by
    rcases step_store h hstep with hsame | ⟨dataPoints, epoch, revision, hwrite⟩
    · rw [hsame]
      exact h.wellFormed
    · exact write_wellFormed h.wellFormed hwrite
  refine ⟨hwellFormed, ?_⟩
  cases action with
  | write dataPoints epoch =>
      rw [step] at hstep
      cases hwrite : world.store.write dataPoints epoch with
      | error error =>
          rw [hwrite] at hstep
          cases hstep
          exact h.mirror
      | ok result =>
          rw [hwrite] at hstep
          cases hstep
          intro mirror hmirror
          cases hmirror
  | rehydrate sessionId =>
      cases hstep
      intro mirror hmirror
      cases hmirror
      exact agrees_rehydrate _ h.wellFormed
  | writeThrough dataPoints epoch =>
      obtain ⟨mirror, hmirror, hworld⟩ := Option.map_eq_some_iff.mp hstep
      have hagrees := h.mirror mirror hmirror
      cases hwrite : world.store.write dataPoints epoch with
      | error error =>
          rw [hagrees.write_error hwrite] at hworld
          rw [← hworld]
          intro mirror' hmirror'
          cases hmirror'
          exact hagrees
      | ok result =>
          obtain ⟨hresult, hagrees'⟩ := hagrees.write_ok hwrite
          rw [hresult] at hworld
          rw [← hworld]
          intro mirror' hmirror'
          cases hmirror'
          exact hagrees'

/-- What a step does to the entries and the revision. -/
theorem step_follows {world world' : World} {action : Action} (h : Invariant world)
    (hstep : step world action = some world') :
  Follows world.store.revision world.store.entries world'.store.entries
    ∧ (world'.store.revision = world.store.revision + 1
          ∧ Differs world.store.revision world.store.entries world'.store.entries
        ∨ world'.store.revision = world.store.revision
          ∧ world'.store.entries = world.store.entries)
  := by
  rcases step_store h hstep with hsame | ⟨dataPoints, epoch, revision, hwrite⟩
  · rw [hsame]
    exact ⟨Follows.refl _ _, Or.inr ⟨rfl, rfl⟩⟩
  · exact write_follows hwrite

/-- Over a run the entries follow those of its beginning. -/
theorem run_follows {world world' : World} {actions : List Action} (h : Invariant world)
    (hrun : TransitionSystem.run step world actions = some world') :
  Follows world.store.revision world.store.entries world'.store.entries
  := by
  have hinvariant := TransitionSystem.run_invariant
    (P := fun later => Invariant later ∧ world.store.revision ≤ later.store.revision
      ∧ Follows world.store.revision world.store.entries later.store.entries)
    (by
      rintro later action later' ⟨hlater, hle, hfollows⟩ hstep
      obtain ⟨hnext, hrevision⟩ := step_follows hlater hstep
      refine ⟨invariant_step hlater hstep, ?_, hfollows.trans hle hnext⟩
      rcases hrevision with ⟨hrevision, -⟩ | ⟨hrevision, -⟩
      · rw [hrevision]
        exact hle.trans (Nat.le_succ _)
      · rw [hrevision]
        exact hle)
    ⟨h, le_rfl, Follows.refl _ _⟩ hrun
  exact hinvariant.2.2

/-- What holds of every history: of a state in it and any later one, and of each step. -/
structure Exact : Prop where
  /-- The change set since an earlier state is the difference of the snapshots. -/
  difference : ∀ {before after : List Action} {world world' : World},
    TransitionSystem.run step initial before = some world →
      TransitionSystem.run step world after = some world' →
        let change := world'.store.changeSetSince world.store.revision
        change.added = addedTo world.store.snapshot world'.store.snapshot
          ∧ change.updated = updatedIn world.store.snapshot world'.store.snapshot
          ∧ ((change.added ++ change.updated).map identityKey).Nodup
  /-- A DataPoint of a snapshot is kept; only its last retrieval changes, to later ones. -/
  kept : ∀ {before after : List Action} {world world' : World},
    TransitionSystem.run step initial before = some world →
      TransitionSystem.run step world after = some world' →
        ∀ old ∈ world.store.snapshot, ∃ dataPoint ∈ world'.store.snapshot,
          dataPoint = { old with lastRetrieved := dataPoint.lastRetrieved }
            ∧ old.lastRetrieved ≤ dataPoint.lastRetrieved
  /-- The revision counts the steps that change the snapshot. -/
  revision : ∀ {before : List Action} {world world' : World} {action : Action},
    TransitionSystem.run step initial before = some world →
      step world action = some world' →
        world'.store.revision = world.store.revision + 1
            ∧ world'.store.snapshot ≠ world.store.snapshot
          ∨ world'.store.revision = world.store.revision
            ∧ world'.store.snapshot = world.store.snapshot

/-- In every history change sets are exact. -/
theorem change_sets_exact :
  Exact
  := by
  have hreachable : ∀ {actions : List Action} {world : World},
      TransitionSystem.run step initial actions = some world → Invariant world := fun hrun =>
    TransitionSystem.run_invariant (fun _ _ _ => invariant_step) invariant_initial hrun
  have hlater : ∀ {before after : List Action} {world world' : World},
      TransitionSystem.run step initial before = some world →
        TransitionSystem.run step world after = some world' → Invariant world' :=
    fun hbefore hafter => TransitionSystem.run_invariant (fun _ _ _ => invariant_step)
      (hreachable hbefore) hafter
  constructor
  · intro before after world world' hbefore hafter change
    have h := (hreachable hbefore).wellFormed
    have h' := (hlater hbefore hafter).wellFormed
    obtain ⟨hadded, hupdated⟩ :=
      changeSetSince_eq h h' (run_follows (hreachable hbefore) hafter)
    refine ⟨hadded, hupdated, ?_⟩
    rw [hadded, hupdated]
    exact nodup_difference world.store.snapshot h'
  · intro before after world world' hbefore hafter old hold
    exact snapshot_kept (hreachable hbefore).wellFormed (hlater hbefore hafter).wellFormed
      (run_follows (hreachable hbefore) hafter) hold
  · intro before world world' action hbefore hstep
    have h := hreachable hbefore
    obtain ⟨-, ⟨hrevision, hdiffers⟩ | ⟨hrevision, hsame⟩⟩ := step_follows h hstep
    · left
      exact ⟨hrevision,
        snapshot_ne_of_differs h.wellFormed (invariant_step h hstep).wellFormed hdiffers⟩
    · right
      use hrevision
      rw [snapshot, snapshot, hsame]

end ChangeHistory

end Orcastork
