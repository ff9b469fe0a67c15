import Orcastork.Manager.Invariants

/-!
# What the finalized output covers

A completing run should leave every aggregator that was ready, and that it did not dead-letter,
finalized on a view of all DataPoints in the store. The marker of a contribution stands for this:
an aggregator that is marked is skipped, because its last finalize covers the store.

Only `_prepare_redrive`, `reopen` and the backstop clear the markers before they take more data
in. A `resume` does not: an entry that reaches a session whose owner died after marking is merged
under the marker, and the aggregator is skipped. Nor does the marker stand for anything while an
owner that was superseded still writes.
-/

namespace Orcastork

/-- The mirror was rehydrated. -/
def Stage.rehydrated : Stage → Bool
  | .gather => true
  | .aggregate _ => true
  | .redrive _ => true
  | .complete => true
  | _ => false

/-- The view of the aggregation phase stands. -/
def Stage.aggregated : Stage → Bool
  | .aggregate _ => true
  | .complete => true
  | _ => false

theorem Stage.rehydrated_of_aggregated {stage : Stage} (h : stage.aggregated = true) :
  stage.rehydrated = true
  := by
  cases stage with
  | aggregate => rfl
  | complete => rfl
  | _ => cases h

/-- The moves by which a run changes the DataPoints, what was finalized, or the markers set. -/
def RunMove.writes {K : Type} : RunMove K → Bool
  | .merge _ => true
  | .finalize _ => true
  | .markContribution _ => true
  | _ => false

/-- The DataPoints a move merges. -/
def RunMove.merged? {K : Type} : RunMove K → Option (Finset K)
  | .merge identities => some identities
  | _ => none

/-- A run that does not write changes neither the DataPoints nor what was finalized, and sets no
marker. -/
theorem Run.Moved.quiet {K : Type} [DecidableEq K] {flow : Flow} {shared shared' : Shared K}
    {run run' : Run K} {m : RunMove K} (h : run.Moved flow shared m shared' run') (hm : m.writes = false) :
  shared'.store = shared.store ∧ shared'.lastView = shared.lastView
    ∧ ∀ operatorId, shared'.marked flow operatorId = true → shared.marked flow operatorId = true
  := by
  cases h with
  | merge => cases hm
  | finalize => cases hm
  | markContribution => cases hm
  | clearContribution =>
      use rfl, rfl
      intro operatorId hmarked
      apply (DurableStore.isContributionMarked_clearContribution.mp hmarked).2
  | _ =>
      use rfl, rfl
      intro operatorId hmarked
      apply hmarked

namespace Manager

open TransitionSystem (Always)

variable {K : Type} [DecidableEq K]

/-- The last successful finalize of an aggregator was given all DataPoints in the store. -/
def Covers (shared : Shared K) (operatorId : OperatorId) : Prop :=
  ∃ view, shared.lastView operatorId = some view ∧ shared.store ⊆ view

/-- A marked aggregator covers the store. -/
def MarkedCovers (flow : Flow) (shared : Shared K) : Prop :=
  ∀ operatorId, shared.marked flow operatorId = true → Covers shared operatorId

/-- A run knows of all DataPoints in the store, and the aggregators it found ready cover them
once they are finalized. -/
structure Current (shared : Shared K) (run : Run K) : Prop where
  mirror_eq : run.stage.rehydrated = true → run.mirror = shared.store
  view_eq : run.stage.aggregated = true → run.view = shared.store
  succeeded_covers : run.stage.aggregated = true → ∀ operatorId ∈ run.succeeded,
    Covers shared operatorId
  ready_covers : run.stage.aggregated = true → ∀ operatorId ∈ run.ready,
    operatorId ∈ run.launched ∨ operatorId ∈ run.deadLetters ∨ Covers shared operatorId
  launched_eq : run.stage = .complete → run.launched = ∅

/-- No aggregator of the session is marked. -/
def Unmarked (flow : Flow) (shared : Shared K) : Prop :=
  ∀ contribution ∈ shared.durable.contributions, contribution.1 ≠ flow.sessionId

/-- What is asked of the moves of runs: only the owner writes, and it merges nothing new while an
aggregator of the session is marked. -/
def Drained (flow : Flow) (s : State K) (action : Action K) : Prop :=
  ∀ runMove ∈ action.runMove?, ∀ run ∈ runOf s runMove.1,
    (runMove.2.writes = true → run.epoch = s.shared.lock.currentEpoch)
      ∧ ∀ identities ∈ runMove.2.merged?,
        identities ⊆ s.shared.store ∨ Unmarked flow s.shared

instance (flow : Flow) (shared : Shared K) : Decidable (Unmarked flow shared) :=
  inferInstanceAs (Decidable (∀ contribution ∈ shared.durable.contributions,
    contribution.1 ≠ flow.sessionId))

instance (flow : Flow) (s : State K) (action : Action K) : Decidable (Drained flow s action) :=
  inferInstanceAs (Decidable (∀ runMove ∈ action.runMove?, ∀ run ∈ runOf s runMove.1,
    (runMove.2.writes = true → run.epoch = s.shared.lock.currentEpoch)
      ∧ ∀ identities ∈ runMove.2.merged?,
        identities ⊆ s.shared.store ∨ Unmarked flow s.shared))

/-! ### What a run keeps current -/

variable {flow : Flow} {shared shared' : Shared K} {run run' : Run K} {m : RunMove K}

omit [DecidableEq K] in
theorem covers_congr (hstore : shared'.store = shared.store)
    (hview : shared'.lastView = shared.lastView) {operatorId : OperatorId} :
  Covers shared' operatorId ↔ Covers shared operatorId
  := by
  rw [Covers, Covers, hstore, hview]

omit [DecidableEq K] in
/-- A run stays current if neither the DataPoints nor what was finalized changes. -/
theorem Current.congr (h : Current shared run) (hstore : shared'.store = shared.store)
    (hview : shared'.lastView = shared.lastView) :
  Current shared' run
  := by
  constructor
  · rw [hstore]
    apply h.mirror_eq
  · rw [hstore]
    apply h.view_eq
  · simp only [covers_congr hstore hview]
    apply h.succeeded_covers
  · simp only [covers_congr hstore hview]
    apply h.ready_covers
  · apply h.launched_eq

omit [DecidableEq K] in
/-- Before it has rehydrated or after its end a run need know nothing. -/
theorem current_of_not_rehydrated (hrehydrated : run.stage.rehydrated = false) :
  Current shared run
  := by
  have haggregated : run.stage.aggregated = false := by
    apply Bool.eq_false_iff.mpr
    intro h
    rw [Stage.rehydrated_of_aggregated h] at hrehydrated
    cases hrehydrated
  constructor
  · simp [hrehydrated]
  · simp [haggregated]
  · simp [haggregated]
  · simp [haggregated]
  · intro hstage
    rw [hstage] at hrehydrated
    cases hrehydrated

omit [DecidableEq K] in
/-- Outside the aggregation phase a run need only know the DataPoints. -/
theorem current_of_not_aggregated (haggregated : run.stage.aggregated = false)
    (hmirror : run.mirror = shared.store) :
  Current shared run
  := by
  constructor
  · intro
    apply hmirror
  · simp [haggregated]
  · simp [haggregated]
  · simp [haggregated]
  · intro hstage
    rw [hstage] at haggregated
    cases haggregated

omit [DecidableEq K] in
/-- What is marked stays covered if no marker is set and nothing it stands for changes. -/
theorem MarkedCovers.congr (h : MarkedCovers flow shared) (hstore : shared'.store = shared.store)
    (hview : shared'.lastView = shared.lastView)
    (hmarked : ∀ operatorId, shared'.marked flow operatorId = true →
      shared.marked flow operatorId = true) :
  MarkedCovers flow shared'
  := by
  intro operatorId hmarked'
  apply (covers_congr hstore hview).mpr
  apply h operatorId (hmarked operatorId hmarked')

/-- A current run that merges stays current, and what is marked stays covered. -/
theorem merge_covers {identities : Finset K} (h : Current shared run)
    (hmarked : MarkedCovers flow shared) (hstage : run.stage = .gather)
    (hnew : identities ⊆ shared.store ∨ Unmarked flow shared) :
  Current { shared with store := shared.store ∪ identities, storeEpoch := run.epoch }
      { run with mirror := run.mirror ∪ identities }
    ∧ MarkedCovers flow
      { shared with store := shared.store ∪ identities, storeEpoch := run.epoch }
  := by
  constructor
  · apply current_of_not_aggregated
    · simp only [hstage, Stage.aggregated]
    · simp only
      rw [h.mirror_eq]
      rw [hstage, Stage.rehydrated]
  · intro operatorId hoperator
    obtain hold | hnone := hnew
    · obtain ⟨view, hview, hsub⟩ := hmarked operatorId hoperator
      use view, hview
      simp only
      rw [Finset.union_eq_left.mpr hold]
      apply hsub
    · exact absurd rfl (hnone _ (of_decide_eq_true hoperator))

omit [DecidableEq K] in
/-- A current run that aggregates stays current if its view stays, nothing new has succeeded, and
what it found ready is launched, dead-lettered or covers the store. -/
theorem Current.aggregating (h : Current shared run) (haggregated : run.stage.aggregated = true)
    (hmirror : run'.mirror = run.mirror) (hview : run'.view = run.view)
    (hsucceeded : run'.succeeded ⊆ run.succeeded)
    (hready : ∀ operatorId ∈ run'.ready,
      operatorId ∈ run'.launched ∨ operatorId ∈ run'.deadLetters ∨ Covers shared operatorId)
    (hlaunched : run'.stage = .complete → run'.launched = ∅) :
  Current shared run'
  := by
  constructor
  · intro
    rw [hmirror]
    apply h.mirror_eq
    apply Stage.rehydrated_of_aggregated haggregated
  · intro
    rw [hview]
    apply h.view_eq haggregated
  · intro _ operatorId hmem
    apply h.succeeded_covers haggregated operatorId (hsucceeded hmem)
  · intro
    apply hready
  · apply hlaunched

omit [DecidableEq K] in
/-- A current run that finalizes an aggregator stays current, and what is marked stays
covered. -/
theorem finalize_covers {operatorId : OperatorId} (h : Current shared run)
    (hmarked : MarkedCovers flow shared) (hstage : run.stage = .aggregate []) :
  Current { shared with lastView := Function.update shared.lastView operatorId (some run.view) }
      { run with
        launched := run.launched.erase operatorId
        succeeded := insert operatorId run.succeeded }
    ∧ MarkedCovers flow
      { shared with lastView := Function.update shared.lastView operatorId (some run.view) }
  := by
  have haggregated : run.stage.aggregated = true := by
    rw [hstage, Stage.aggregated]
  have hview := h.view_eq haggregated
  have hcovers (operatorId' : OperatorId)
      (hor : operatorId' = operatorId ∨ Covers shared operatorId') :
      Covers { shared with lastView := Function.update shared.lastView operatorId (some run.view) }
        operatorId' := by
    by_cases heq : operatorId' = operatorId
    · use run.view
      constructor
      · rw [heq]
        apply Function.update_self
      · rw [hview]
    · obtain heq' | ⟨view, hlast, hsub⟩ := hor
      · exact absurd heq' heq
      · use view
        constructor
        · apply (Function.update_of_ne heq _ _).trans hlast
        · apply hsub
  constructor
  · constructor
    · intro hrehydrated
      apply h.mirror_eq hrehydrated
    · intro
      apply hview
    · intro _ operatorId' hmem
      apply hcovers
      obtain heq | hmem := Finset.mem_insert.mp hmem
      · left
        apply heq
      · right
        apply h.succeeded_covers haggregated operatorId' hmem
    · intro _ operatorId' hmem
      by_cases heq : operatorId' = operatorId
      · right
        right
        apply hcovers
        left
        apply heq
      · obtain hlaunched | hdead | hcov := h.ready_covers haggregated operatorId' hmem
        · left
          apply Finset.mem_erase.mpr
          use heq
        · right
          left
          apply hdead
        · right
          right
          apply hcovers
          right
          apply hcov
    · intro hcomplete
      have hne := hstage.symm.trans hcomplete
      cases hne
  · intro operatorId' hoperator
    apply hcovers
    right
    apply hmarked operatorId' hoperator

omit [DecidableEq K] in
theorem aggregated_of_eq {rest : List OperatorId} (h : run.stage = .aggregate rest) :
  run.stage.aggregated = true
  := by
  rw [h, Stage.aggregated]

/-- A current run stays current, and what is marked stays covered, if it merges nothing new while
an aggregator is marked. -/
theorem Current.moved (h : Current shared run) (hmarked : MarkedCovers flow shared)
    (hmoved : run.Moved flow shared m shared' run')
    (hdrained : ∀ identities ∈ m.merged?, identities ⊆ shared.store ∨ Unmarked flow shared) :
  Current shared' run' ∧ MarkedCovers flow shared'
  := by
  cases hmoved with
  | merge hstage _ => apply merge_covers h hmarked hstage (hdrained _ rfl)
  | finalize hstage _ => apply finalize_covers h hmarked hstage
  | rehydrate =>
      constructor
      · apply current_of_not_aggregated rfl rfl
      · apply hmarked
  | aggregate hstage _ =>
      have hview : run.mirror = shared.store := by
        apply h.mirror_eq
        rw [hstage, Stage.rehydrated]
      constructor
      · constructor
        · intro
          apply hview
        · intro
          apply hview
        · intro _ operatorId hmem
          cases hmem
        · intro _ operatorId hmem
          cases hmem
        · nofun
      · apply hmarked
  | skipUnready hstage =>
      have haggregated := aggregated_of_eq hstage
      constructor
      · apply h.aggregating haggregated
        · rfl
        · rfl
        · apply Finset.Subset.refl
        · apply h.ready_covers haggregated
        · nofun
      · apply hmarked
  | @skipMarked operatorId rest hstage hoperator =>
      have haggregated := aggregated_of_eq hstage
      constructor
      · apply h.aggregating haggregated
        · rfl
        · rfl
        · apply Finset.Subset.refl
        · intro operatorId' hmem
          obtain rfl | hmem := Finset.mem_insert.mp hmem
          · right
            right
            apply hmarked _ hoperator
          · apply h.ready_covers haggregated operatorId' hmem
        · nofun
      · apply hmarked
  | @launch operatorId rest hstage _ =>
      have haggregated := aggregated_of_eq hstage
      constructor
      · apply h.aggregating haggregated
        · rfl
        · rfl
        · apply Finset.Subset.refl
        · intro operatorId' hmem
          obtain rfl | hmem := Finset.mem_insert.mp hmem
          · left
            apply Finset.mem_insert_self
          · obtain hlaunched | hdone := h.ready_covers haggregated operatorId' hmem
            · left
              apply Finset.mem_insert_of_mem hlaunched
            · right
              apply hdone
        · nofun
      · apply hmarked
  | @deadLetter operatorId hstage _ =>
      have haggregated := aggregated_of_eq hstage
      constructor
      · apply h.aggregating haggregated
        · rfl
        · rfl
        · apply Finset.Subset.refl
        · intro operatorId' hmem
          obtain hlaunched | hdead | hcovers := h.ready_covers haggregated operatorId' hmem
          · by_cases heq : operatorId' = operatorId
            · right
              left
              rw [heq]
              apply Finset.mem_insert_self
            · left
              apply Finset.mem_erase.mpr
              use heq
          · right
            left
            apply Finset.mem_insert_of_mem hdead
          · right
            right
            apply hcovers
        · intro hcomplete
          cases hstage.symm.trans hcomplete
      · apply hmarked
  | @markContribution operatorId new durable hstage hsucceeded hmark =>
      have haggregated := aggregated_of_eq hstage
      constructor
      · refine Current.congr (h.aggregating haggregated rfl rfl ?_ ?_ ?_) rfl rfl
        · apply Finset.erase_subset
        · apply h.ready_covers haggregated
        · intro hcomplete
          cases hstage.symm.trans hcomplete
      · intro operatorId' hmarked'
        obtain rfl | hbefore :=
          (DurableStore.isContributionMarked_markContribution hmark).mp hmarked'
        · apply h.succeeded_covers haggregated _ hsucceeded
        · apply hmarked operatorId' hbefore
  | inboxEmpty hstage hlaunched _ _ =>
      have haggregated := aggregated_of_eq hstage
      constructor
      · apply h.aggregating haggregated
        · rfl
        · rfl
        · apply Finset.Subset.refl
        · apply h.ready_covers haggregated
        · intro
          apply hlaunched
      · apply hmarked
  | inboxPending hstage _ _ _ =>
      constructor
      · apply current_of_not_aggregated rfl
        apply h.mirror_eq
        rw [hstage, Stage.rehydrated]
      · apply hmarked
  | clearContribution hstage =>
      constructor
      · apply current_of_not_aggregated rfl
        apply h.mirror_eq
        rw [hstage, Stage.rehydrated]
      · intro operatorId hoperator
        apply hmarked
        apply (DurableStore.isContributionMarked_clearContribution.mp hoperator).2
  | redriven hstage =>
      constructor
      · apply current_of_not_aggregated rfl
        apply h.mirror_eq
        rw [hstage, Stage.rehydrated]
      · apply hmarked
  | renew =>
      constructor
      · apply h.congr
        · rfl
        · rfl
      · apply hmarked
  | reclaim =>
      constructor
      · apply h.congr
        · rfl
        · rfl
      · apply hmarked
  | consume =>
      constructor
      · apply h.congr
        · rfl
        · rfl
      · apply hmarked
  | ack =>
      constructor
      · apply h.congr
        · rfl
        · rfl
      · apply hmarked
  | quarantine =>
      constructor
      · apply h.congr
        · rfl
        · rfl
      · apply hmarked
  | _ =>
      constructor
      · apply current_of_not_rehydrated rfl
      · apply hmarked

/-- A call that does not write through its run changes neither the DataPoints nor what was
finalized, and sets no marker. -/
theorem Moved.quiet {point point' : Point K} {m : Move K}
    (h : Moved flow shared point m shared' point')
    (hquiet : ∀ m', m = .run m' → m'.writes = false) :
  shared'.store = shared.store ∧ shared'.lastView = shared.lastView
    ∧ ∀ operatorId, shared'.marked flow operatorId = true → shared.marked flow operatorId = true
  := by
  cases h with
  | run hrun => apply hrun.quiet (hquiet _ rfl)
  | clearContribution =>
      use rfl, rfl
      intro operatorId hmarked
      apply (DurableStore.isContributionMarked_clearContribution.mp hmarked).2
  | _ =>
      use rfl, rfl
      intro operatorId hmarked
      apply hmarked

/-! ### Runs of a session -/

/-- What holds of a session in which only the owner writes: what is marked covers the store, and
the owner is current. -/
structure Coverage (flow : Flow) (s : State K) : Prop where
  wf : Wf s
  marked_covers : MarkedCovers flow s.shared
  owner_current : ∀ i run, Runs s.points i run → run.epoch = s.shared.lock.epochCounter →
    Current s.shared run

variable {s s' : State K}

omit [DecidableEq K] in
/-- Nothing is marked in a session nothing has happened to. -/
theorem coverage_initial :
  Coverage flow (initial K)
  := by
  constructor
  · apply wf_of_no_runs not_runs_initial
    nofun
  · intro operatorId hmarked
    simp [initial, Shared.initial, Shared.marked, DurableStore.isContributionMarked,
      DurableStore.initial] at hmarked
  · intro i run hruns
    exact absurd hruns (not_runs_initial i run)

/-- A move of a call that does not write keeps what is covered. -/
theorem Coverage.quiet {points : List (Point K)} {i : ℕ} {point point' : Point K} {m : Move K}
    (h : Coverage flow ⟨shared, points⟩) (hi : points[i]? = some point)
    (hmoved : Moved flow shared point m shared' point')
    (hquiet : ∀ m', m = .run m' → m'.writes = false)
    (hown : ∀ run, Runs (points.set i point') i run →
      run.epoch = shared'.lock.epochCounter → Current shared' run) :
  Coverage flow ⟨shared', points.set i point'⟩
  := by
  obtain ⟨hstore, hview, hmarked⟩ := hmoved.quiet hquiet
  constructor
  · apply h.wf.moved hi hmoved
  · apply h.marked_covers.congr hstore hview hmarked
  · intro j run hj hepoch
    obtain ⟨rfl, -⟩ | ⟨-, hj'⟩ := (runs_set hi).mp hj
    · apply hown run hj hepoch
    · apply Current.congr _ hstore hview
      apply h.owner_current j run hj'
      obtain ⟨-, hcounter, -⟩ | ⟨-, hcounter, -⟩ := hmoved.epochs
      · have hle := h.wf.epoch_le j run hj'
        rw [hepoch, hcounter] at hle
        exact absurd hle (Nat.not_succ_le_self _)
      · apply hepoch.trans hcounter

/-- A move of a run that writes only as the owner, and merges nothing new under a marker, keeps
what is covered. -/
theorem Coverage.moved_run {points : List (Point K)} {i : ℕ} {spawn : Spawn}
    (h : Coverage flow ⟨shared, points⟩) (hi : points[i]? = some (.running spawn run))
    (hrun : run.Moved flow shared m shared' run')
    (howner : m.writes = true → run.epoch = shared.lock.epochCounter)
    (hnew : ∀ identities ∈ m.merged?, identities ⊆ shared.store ∨ Unmarked flow shared) :
  Coverage flow ⟨shared', points.set i (.running spawn run')⟩
  := by
  have hruns : Runs points i run := ⟨spawn, hi⟩
  have hmoved : Moved flow shared (.running spawn run) (.run m) shared' (.running spawn run') :=
    .run hrun
  obtain ⟨hepoch, -, -⟩ := hrun.frame
  have hcounter : shared'.lock.epochCounter = shared.lock.epochCounter := by
    obtain hlock | ⟨-, hlock⟩ | ⟨-, hlock⟩ := hrun.lock <;> rw [hlock]
  by_cases hown : run.epoch = shared.lock.epochCounter
  · obtain ⟨hcurrent, hmarked⟩ :=
      (h.owner_current i run hruns hown).moved h.marked_covers hrun hnew
    constructor
    · apply h.wf.moved hi hmoved
    · apply hmarked
    · intro j run₁ hj howner₁
      have hij : j = i := by
        apply (h.wf.moved hi hmoved).owner_unique hj _ howner₁
        · rw [hepoch]
          apply hown.trans hcounter.symm
        · apply (runs_self hi).mpr rfl
      rw [hij] at hj
      rw [(runs_self hi).mp hj]
      apply hcurrent
  · have hwrites : m.writes = false := by
      apply Bool.eq_false_iff.mpr
      intro hwrites
      exact absurd (howner hwrites) hown
    apply h.quiet hi hmoved
    · rintro m' ⟨⟩
      apply hwrites
    · intro run₁ h₁ howner₁
      rw [(runs_self hi).mp h₁, hepoch, hcounter] at howner₁
      exact absurd howner₁ hown

/-- A step in which only the owner writes, and merges nothing new under a marker, keeps what is
covered. -/
theorem Coverage.step {action : Action K} (h : Coverage flow s)
    (hdrained : Drained flow s action) (hstep : step flow s action = some s') :
  Coverage flow s'
  := by
  obtain ⟨ticks, -, rfl⟩ | ⟨call, -, rfl⟩
    | ⟨i, m, point, shared', point', rfl, hi, hmoved, rfl⟩ := step_eq_some hstep
  · constructor
    · apply h.wf.step hstep
    · apply h.marked_covers.congr
      · rfl
      · rfl
      · intro operatorId hmarked
        apply hmarked
    · intro i run hruns hepoch
      apply (h.owner_current i run hruns hepoch).congr
      · rfl
      · rfl
  · constructor
    · apply h.wf.step hstep
    · apply h.marked_covers
    · intro i run hruns
      apply h.owner_current i run (runs_start.mp hruns)
  · by_cases hm : ∃ m', m = .run m'
    · obtain ⟨m', rfl⟩ := hm
      cases hmoved with
      | @run spawn run run' _ _ hrun =>
          obtain ⟨howner, hnew⟩ := hdrained (i, m') rfl run (runOf_eq_some.mpr ⟨spawn, hi⟩)
          apply h.moved_run hi hrun howner hnew
    · apply h.quiet hi hmoved
      · intro m' hm'
        exact absurd ⟨m', hm'⟩ hm
      · intro run hruns _
        obtain ⟨hne, -⟩ | ⟨-, permitted, epoch, lock, -, -, -, rfl⟩ | ⟨-, -, m', -, hm', -⟩ :=
          runs_moved hi hmoved hruns
        · exact absurd rfl hne
        · apply current_of_not_rehydrated rfl
        · exact absurd ⟨m', hm'⟩ hm

/-- The sessions of a run whose every step is the owner's, and merges nothing new under a
marker, complete with a finalized output that covers the store: the readiness of the aggregators
was decided on all of its DataPoints, and every one that was ready and is not dead-lettered was
last finalized on a view of them all. -/
theorem finalized_covers_store {actions : List (Action K)} {i : ℕ} {spawn : Spawn}
    (hdrained : Always (step flow) (Drained flow) (initial K) actions)
    (hrun : TransitionSystem.run (step flow) (initial K) actions = some s)
    (hi : s.points[i]? = some (.running spawn run))
    (hcomplete : step flow s (.move i (.run .markComplete)) = some s') :
  run.view = s'.shared.store
    ∧ ∀ operatorId ∈ run.ready, operatorId ∉ run.deadLetters → Covers s'.shared operatorId
  := by
  have hcoverage : Coverage flow s := by
    apply TransitionSystem.run_invariant_of_always _ coverage_initial hdrained hrun
    intro t action t' ht hstep hnext
    apply ht.step hstep hnext
  obtain ⟨point, shared', point', hpoint, hmove, rfl⟩ := Threads.advance_eq_some.mp hcomplete
  cases hi.symm.trans hpoint
  cases moved_of_move hmove with
  | run hmoved =>
      cases hmoved with
      | markComplete hstage hmark =>
          obtain ⟨hcounter, -⟩ := LockState.markComplete_eq_ok.mp hmark
          have hruns : Runs s.points i run := ⟨spawn, hi⟩
          have hcurrent : Current s.shared run := by
            apply hcoverage.owner_current i run hruns
            apply Nat.le_antisymm (hcoverage.wf.epoch_le i run hruns) hcounter
          have haggregated : run.stage.aggregated = true := by
            rw [hstage, Stage.aggregated]
          constructor
          · apply hcurrent.view_eq haggregated
          · intro operatorId hready hdead
            obtain hlaunched | hdead' | hcovers :=
              hcurrent.ready_covers haggregated operatorId hready
            · rw [hcurrent.launched_eq hstage] at hlaunched
              cases hlaunched
            · exact absurd hdead' hdead
            · apply hcovers

/-! ### A session whose owner died after marking -/

/-- A DataPoint delivered to a session. -/
def note : BaseDataPoint where
  type := "note"
  value := .str "late"
  retrievedBy := "participant"
  firstRetrieved := 0
  lastRetrieved := 0
  hashed := .str "late"
  hashable := rfl

/-- A flow with one aggregator. -/
def reportFlow : Flow where
  sessionId := "session"
  aggregators := ["report"]
  ttl := 30
  redeliveryRecheck := 35
  parkAfter := none
  decode := fun _ => .dataPoint note

/-- The first run gathers a DataPoint, and finalizes and marks the aggregator. -/
def finalizes : List (Action ℕ) :=
  [.invoke .startSession, .move 0 (.acquire ["report"]), .move 0 (.run .rehydrate),
    .move 0 (.run (.merge {1})), .move 0 (.run .aggregate),
    .move 0 (.run (.checkAggregator true)), .move 0 (.run (.finalize "report")),
    .move 0 (.run (.markContribution "report"))]

/-- If it lives on, it completes. -/
theorem finalized_covers_store_undisturbed :
  ∃ s s' spawn run,
    TransitionSystem.run (step reportFlow) (initial ℕ)
        (finalizes ++ [.move 0 (.run .pendingCount)]) = some s
      ∧ s.points[0]? = some (.running spawn run)
      ∧ step reportFlow s (.move 0 (.run .markComplete)) = some s'
      ∧ run.view = s'.shared.store
      ∧ ∀ operatorId ∈ run.ready, operatorId ∉ run.deadLetters → Covers s'.shared operatorId
  := by
  refine ⟨_, _, _, _, rfl, rfl, rfl, ?_⟩
  apply @finalized_covers_store ℕ _ reportFlow _ _ _ (finalizes ++ [.move 0 (.run .pendingCount)])
    0 .first
  · decide
  · rfl
  · rfl
  · rfl

/-- It dies. When its lease has expired an entry is delivered, and the session resumed. -/
def diesAndResumes : List (Action ℕ) :=
  [.move 0 .crash, .elapse 30, .invoke (.deliver "late" true), .move 1 .append, .move 1 .test,
    .move 1 .test, .move 1 .test, .move 1 .test, .move 1 .test,
    .move 1 (.acquire ["report"])]

/-- The second run merges the entry and completes; the aggregator is skipped. -/
def skips : List (Action ℕ) :=
  [.move 1 (.run .rehydrate), .move 1 (.run .consume), .move 1 (.run (.merge {2})),
    .move 1 (.run (.ack 0)), .move 1 (.run .aggregate), .move 1 (.run (.checkAggregator true)),
    .move 1 (.run .pendingCount)]

/-- The session completes, and the late DataPoint is in no view the aggregator was finalized
on. -/
theorem resume_skips_marked_aggregator :
  ¬∀ (flow : Flow) (actions : List (Action ℕ)) (s s' : State ℕ) (i : ℕ) (spawn : Spawn)
      (run : Run ℕ), TransitionSystem.run (step flow) (initial ℕ) actions = some s →
    s.points[i]? = some (.running spawn run) →
    step flow s (.move i (.run .markComplete)) = some s' →
    ∀ operatorId ∈ run.ready, operatorId ∉ run.deadLetters → Covers s'.shared operatorId
  := by
  intro h
  obtain ⟨view, hview, hsub⟩ :=
    h reportFlow (finalizes ++ diesAndResumes ++ skips) _ _ 1 _ _ rfl rfl rfl "report"
      (by decide) (by decide)
  cases hview
  revert hsub
  decide

end Manager

end Orcastork
