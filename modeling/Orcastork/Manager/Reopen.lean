import Orcastork.Manager.Coverage

/-!
# A finished re-open stays finished

`reopen` and the backstop clear the completion flag and the markers before they hold the lock. The
clears can land after another call has taken the lock, finalized and marked: the winner's effects
are then gone, and only the call that cleared them can still make up for it, by acquiring the lock
and running again. If it stands down on a `LockHeldError` the session is left as it cleared it.

A call that has cleared, or is about to, and has not yet tried to acquire the lock is pending. As
long as no call stands down while the owner's effects are cleared and no other call is pending,
the last run to complete stays finished.
-/

namespace Orcastork

namespace Manager

open TransitionSystem (Always)

variable {K : Type} [DecidableEq K]

/-- A call that clears, or is about to acquire the lock. -/
def Point.pending : Point K → Bool
  | .clearComplete _ => true
  | .clearing _ _ => true
  | _ => false

/-- A call that has returned. -/
def Point.isReturned : Point K → Bool
  | .returned => true
  | _ => false

/-- What a run has marked is as it left it. -/
def Intact (flow : Flow) (shared : Shared K) (run : Run K) : Prop :=
  (run.stage = .release .completed → shared.lock.isComplete = true)
    ∧ ∀ operatorId ∈ run.finalized, shared.marked flow operatorId = true

instance (flow : Flow) (shared : Shared K) (run : Run K) : Decidable (Intact flow shared run) :=
  inferInstanceAs (Decidable ((run.stage = .release .completed → shared.lock.isComplete = true)
    ∧ ∀ operatorId ∈ run.finalized, shared.marked flow operatorId = true))

/-- A completed session no call is on and whose last run is as it left it. -/
structure Finished (flow : Flow) (s : State K) : Prop where
  returned : ∀ point ∈ s.points, point.isReturned = true
  complete : s.shared.lock.isComplete = true
  free : s.shared.lock.isHeld s.shared.now = false
  lease_epoch : ∀ lease, s.shared.lock.lease = some lease →
    lease.epoch = s.shared.lock.currentEpoch
  marked : ∀ finalized, s.shared.lastRelease = some (.completed, finalized) →
    ∀ operatorId ∈ finalized, s.shared.marked flow operatorId = true

/-- No crash, and no lease expires. -/
def Undisturbed (s : State K) : Action K → Prop
  | .elapse ticks => ∀ lease ∈ s.shared.lock.lease, s.shared.now < lease.expiresAt →
    s.shared.now + ticks < lease.expiresAt
  | .move _ .crash => False
  | _ => True

/-- A call that finds the lock held when it is about to acquire it. -/
def Action.standsDown? (s : State K) : Action K → Option ℕ
  | .move i (.acquire _) => if s.shared.lock.isHeld s.shared.now then some i else none
  | _ => none

/-- A call stands down only if the owner's effects are intact, or another call is pending. -/
def StandsDownClean (flow : Flow) (s : State K) (action : Action K) : Prop :=
  ∀ i ∈ action.standsDown? s, ∀ run ∈ s.points.filterMap Point.run?,
    Intact flow s.shared run ∨ (s.points.eraseIdx i).any Point.pending = true

/-! ### Pending calls -/

/-- Some call is pending. -/
def Pending (points : List (Point K)) : Prop :=
  ∃ (i : ℕ) (point : Point K), points[i]? = some point ∧ point.pending = true

variable {flow : Flow} {shared shared' : Shared K} {run run' : Run K} {points : List (Point K)}
  {point point' : Point K} {i : ℕ}

omit [DecidableEq K] in
/-- A call that moves leaves some call pending, if another one is or it is itself afterwards. -/
theorem pending_set (hi : points[i]? = some point) :
  Pending (points.set i point')
    ↔ point'.pending = true
      ∨ ∃ (j : ℕ) (other : Point K), j ≠ i ∧ points[j]? = some other ∧ other.pending = true
  := by
  simp only [Pending, Threads.getElem?_set_eq_some hi]
  constructor
  · rintro ⟨j, other, ⟨-, rfl⟩ | ⟨hne, hj⟩, hpending⟩
    · left
      apply hpending
    · right
      use j, other
  · rintro (hpending | ⟨j, other, hne, hj, hpending⟩)
    · use i, point'
      constructor
      · left
        use rfl
      · apply hpending
    · use j, other
      constructor
      · right
        use hne
      · apply hpending

omit [DecidableEq K] in
/-- A call that is not pending, or is pending afterwards, leaves some call pending. -/
theorem Pending.set (h : Pending points) (hi : points[i]? = some point)
    (hpoint : point.pending = true → point'.pending = true) :
  Pending (points.set i point')
  := by
  apply (pending_set hi).mpr
  obtain ⟨j, other, hj, hpending⟩ := h
  by_cases hji : j = i
  · rw [hji] at hj
    cases hi.symm.trans hj
    left
    apply hpoint hpending
  · right
    use j, other

omit [DecidableEq K] in
/-- A call that begins leaves those pending that are. -/
theorem Pending.start (h : Pending points) (point : Point K) :
  Pending (points ++ [point])
  := by
  obtain ⟨j, other, hj, hpending⟩ := h
  use j, other
  constructor
  · apply Threads.getElem?_start_eq_some.mpr
    left
    apply hj
  · apply hpending

/-! ### What the owner keeps -/

/-- What a run has marked stays as it left it when it moves itself. -/
theorem Intact.moved {m : RunMove K} (h : Intact flow shared run)
    (hmoved : run.Moved flow shared m shared' run') :
  Intact flow shared' run'
  := by
  constructor
  · intro hstage
    cases hmoved.ended hstage with
    | completed _ hcomplete => apply hcomplete
  · cases hmoved with
    | @markContribution operatorId new durable _ _ hmark =>
        intro operatorId' hmem
        apply (DurableStore.isContributionMarked_markContribution hmark).mpr
        obtain rfl | hmem := Finset.mem_insert.mp hmem
        · left
          rfl
        · right
          apply h.2 operatorId' hmem
    | @clearContribution operatorId rest _ =>
        intro operatorId' hmem
        obtain ⟨hne, hmem⟩ := Finset.mem_erase.mp hmem
        apply DurableStore.isContributionMarked_clearContribution.mpr
        use hne
        apply h.2 operatorId' hmem
    | _ => apply h.2

omit [DecidableEq K] in
/-- What a run has marked stays as it left it if neither the flag nor the markers change. -/
theorem Intact.congr (h : Intact flow shared run)
    (hcomplete : shared'.lock.isComplete = shared.lock.isComplete)
    (hdurable : shared'.durable = shared.durable) :
  Intact flow shared' run
  := by
  simp only [Intact, hcomplete, Shared.marked, hdurable]
  apply h

/-! ### The owner -/

/-- What holds of a session without crashes and expired leases: its only run holds the lock, and a
lock that is live is held by a run. -/
structure Owned (s : State K) : Prop where
  wf : Wf s
  held : ∀ i run, Runs s.points i run → s.shared.lock.heldBy run.epoch s.shared.now = true
  owner : s.shared.lock.isLive s.shared.now = true → ∃ i run, Runs s.points i run

variable {s s' : State K}

omit [DecidableEq K] in
/-- Two runs of an owned session are one. -/
theorem Owned.unique {j : ℕ} (h : Owned s) (hi : Runs s.points i run)
    (hj : Runs s.points j run') :
  i = j
  := by
  apply h.wf.epoch_injective i j run run' hi hj
  obtain ⟨lease, hlease, hepoch, -⟩ := LockState.heldBy_iff.mp (h.held i run hi)
  obtain ⟨lease', hlease', hepoch', -⟩ := LockState.heldBy_iff.mp (h.held j run' hj)
  cases hlease.symm.trans hlease'
  rw [← hepoch, ← hepoch']

omit [DecidableEq K] in
/-- The only run of an owned session is where it has moved to. -/
theorem Owned.eq_of_set {j : ℕ} {spawn spawn' : Spawn} {run₁ : Run K}
    (h : Owned ⟨shared, points⟩) (hi : points[i]? = some (.running spawn run))
    (hj : Runs (points.set i (.running spawn' run')) j run₁) :
  run₁ = run'
  := by
  obtain ⟨-, spawn₁, heq⟩ | ⟨hne, hj⟩ := (runs_set hi).mp hj
  · cases heq
    rfl
  · exact absurd (h.unique hj ⟨spawn, hi⟩) hne

omit [DecidableEq K] in
/-- When the only run of an owned session is left, there is none. -/
theorem Owned.not_runs_set {j : ℕ} {spawn : Spawn} (h : Owned ⟨shared, points⟩)
    (hi : points[i]? = some (.running spawn run)) (hpoint' : point'.run? = none) :
  ¬Runs (points.set i point') j run'
  := by
  intro hj
  obtain ⟨-, spawn', rfl⟩ | ⟨hne, hj⟩ := (runs_set hi).mp hj
  · cases hpoint'
  · exact absurd (h.unique hj ⟨spawn, hi⟩) hne

omit [DecidableEq K] in
/-- A run of an owned session that is released drops the lease. -/
theorem Owned.release_eq {spawn : Spawn} (h : Owned ⟨shared, points⟩)
    (hi : points[i]? = some (.running spawn run)) :
  shared.lock.release run.epoch = { shared.lock with lease := none }
  := by
  obtain ⟨lease, hlease, hepoch, -⟩ := LockState.heldBy_iff.mp (h.held i run ⟨spawn, hi⟩)
  obtain ⟨hrelease, -⟩ | ⟨-, hother⟩ := LockState.release_eq shared.lock run.epoch
  · apply hrelease
  · exact absurd hepoch (hother lease hlease)

omit [DecidableEq K] in
/-- A call that is in no run, neither before nor after a move that leaves the lease, keeps a
session owned. -/
theorem Owned.outside (h : Owned ⟨shared, points⟩) (hwf : Wf ⟨shared', points.set i point'⟩)
    (hi : points[i]? = some point) (hpoint : point.run? = none) (hpoint' : point'.run? = none)
    (hlease : shared'.lock.lease = shared.lock.lease) (hnow : shared'.now = shared.now) :
  Owned ⟨shared', points.set i point'⟩
  := by
  have hlive : shared'.lock.isLive shared'.now = shared.lock.isLive shared.now := by
    rw [LockState.isLive, LockState.isLive, hlease, hnow]
  constructor
  · apply hwf
  · intro j run hj
    rw [LockState.heldBy, hlive, hlease]
    apply h.held j run ((runs_set_of_none hi hpoint hpoint').mp hj)
  · intro hlive'
    obtain ⟨j, run, hj⟩ := h.owner (hlive.symm.trans hlive')
    use j, run
    apply (runs_set_of_none hi hpoint hpoint').mpr hj

omit [DecidableEq K] in
/-- A lock that is free is held by no run of an owned session. -/
theorem Owned.not_runs {j : ℕ} (h : Owned s) (hfree : s.shared.lock.isLive s.shared.now = false) :
  ¬Runs s.points j run
  := by
  intro hj
  cases (LockState.isLive_of_heldBy (h.held j run hj)).symm.trans hfree

omit [DecidableEq K] in
/-- A granted run holds the lock alone. -/
theorem Owned.acquired {spawn : Spawn} {epoch : Epoch} {lock : LockState}
    {aggregators : List OperatorId} (h : Owned ⟨shared, points⟩) (httl : 0 < flow.ttl)
    (hwf : Wf ⟨{ shared with lock := lock },
      points.set i (.running spawn (.granted K epoch aggregators))⟩)
    (hi : points[i]? = some point)
    (hacquire : shared.lock.acquire flow.sessionId shared.now flow.ttl = .ok (epoch, lock)) :
  Owned ⟨{ shared with lock := lock },
    points.set i (.running spawn (.granted K epoch aggregators))⟩
  := by
  obtain ⟨hfree, rfl, rfl⟩ := LockState.acquire_eq_ok.mp hacquire
  constructor
  · apply hwf
  · intro j run hj
    obtain ⟨-, spawn', heq⟩ | ⟨-, hj⟩ := (runs_set hi).mp hj
    · cases heq
      apply LockState.heldBy_iff.mpr
      use ⟨shared.lock.epochCounter + 1, shared.now + flow.ttl⟩, rfl, rfl
      apply Nat.lt_add_of_pos_right httl
    · exact absurd hj (h.not_runs hfree)
  · intro
    use i, .granted K (shared.lock.epochCounter + 1) aggregators
    apply (runs_self hi).mpr rfl

/-- A run that moves keeps the lock. -/
theorem Owned.moved_run {m : RunMove K} {spawn : Spawn} (h : Owned ⟨shared, points⟩)
    (httl : 0 < flow.ttl) (hwf : Wf ⟨shared', points.set i (.running spawn run')⟩)
    (hi : points[i]? = some (.running spawn run))
    (hrun : run.Moved flow shared m shared' run') :
  Owned ⟨shared', points.set i (.running spawn run')⟩
  := by
  constructor
  · apply hwf
  · intro j run₁ hj
    rw [h.eq_of_set hi hj]
    apply hrun.heldBy httl (h.held i run ⟨spawn, hi⟩)
  · intro
    use i, run'
    apply (runs_self hi).mpr rfl

omit [DecidableEq K] in
/-- A run that releases leaves the lock free. -/
theorem Owned.released {spawn : Spawn} {status : Status} (h : Owned ⟨shared, points⟩)
    (hwf : Wf
      ⟨{ shared with
          lock := shared.lock.release run.epoch
          lastRelease := some (status, run.finalized) },
        points.set i (afterRun spawn run status)⟩)
    (hi : points[i]? = some (.running spawn run)) :
  Owned
    ⟨{ shared with
        lock := shared.lock.release run.epoch
        lastRelease := some (status, run.finalized) },
      points.set i (afterRun spawn run status)⟩
  := by
  constructor
  · apply hwf
  · intro j run₁ hj
    exact absurd hj (h.not_runs_set hi (run?_afterRun spawn run status))
  · rw [h.release_eq hi]
    nofun

/-- A session stays owned if nothing crashes and no lease expires. -/
theorem Owned.step {action : Action K} (h : Owned s) (httl : 0 < flow.ttl)
    (hundisturbed : Undisturbed s action) (hstep : step flow s action = some s') :
  Owned s'
  := by
  have hwf := h.wf.step hstep
  obtain ⟨ticks, rfl, rfl⟩ | ⟨call, -, rfl⟩
    | ⟨i, m, point, shared', point', rfl, hi, hmoved, rfl⟩ := step_eq_some hstep
  · constructor
    · apply hwf
    · intro j run hj
      obtain ⟨lease, hlease, hepoch, hlive⟩ := LockState.heldBy_iff.mp (h.held j run hj)
      apply LockState.heldBy_iff.mpr
      use lease, hlease, hepoch
      apply hundisturbed lease hlease hlive
    · intro hlive
      apply h.owner
      obtain ⟨lease, hlease, hexpires⟩ := LockState.isLive_iff.mp hlive
      apply LockState.isLive_iff.mpr
      use lease, hlease
      apply (Nat.le_add_right _ _).trans_lt hexpires
  · constructor
    · apply hwf
    · intro j run hj
      apply h.held j run (runs_start.mp hj)
    · intro hlive
      obtain ⟨j, run, hj⟩ := h.owner hlive
      use j, run
      apply runs_start.mpr hj
  · cases hmoved with
    | acquired hacquire => apply h.acquired httl hwf hi hacquire
    | run hrun => apply h.moved_run httl hwf hi hrun
    | release => apply h.released hwf hi
    | test => apply h.outside hwf hi rfl (Test.run?_next _) rfl rfl
    | crash => exact absurd hundisturbed id
    | _ => apply h.outside hwf hi rfl rfl rfl rfl

/-! ### Sessions without crashes -/

/-- What holds of a session without crashes and expired leases whose calls stand down cleanly: its
only run holds the lock, and the effects of the owner, or of the last run to complete, are intact
unless a call is pending. -/
structure Settled (flow : Flow) (s : State K) : Prop where
  wf : Wf s
  held : ∀ i run, Runs s.points i run → s.shared.lock.heldBy run.epoch s.shared.now = true
  owner : s.shared.lock.isLive s.shared.now = true → ∃ i run, Runs s.points i run
  intact : ∀ i run, Runs s.points i run → Intact flow s.shared run ∨ Pending s.points
  last : (∀ i run, ¬Runs s.points i run) →
    ∀ finalized, s.shared.lastRelease = some (.completed, finalized) →
      (s.shared.lock.isComplete = true
        ∧ ∀ operatorId ∈ finalized, s.shared.marked flow operatorId = true)
      ∨ Pending s.points

omit [DecidableEq K] in
/-- A settled session is owned. -/
theorem Settled.owned (h : Settled flow s) :
  Owned s
  := ⟨h.wf, h.held, h.owner⟩

omit [DecidableEq K] in
/-- A completed session no call is on is settled. -/
theorem Finished.settled (h : Finished flow s) :
  Settled flow s
  := by
  have hruns (i : ℕ) (run : Run K) : ¬Runs s.points i run := by
    rintro ⟨spawn, hi⟩
    cases h.returned _ (List.mem_of_getElem? hi)
  constructor
  · apply wf_of_no_runs hruns h.lease_epoch
  · intro i run hi
    exact absurd hi (hruns i run)
  · intro hlive
    cases hlive.symm.trans h.free
  · intro i run hi
    exact absurd hi (hruns i run)
  · intro _ finalized hlast
    left
    use h.complete
    apply h.marked finalized hlast

omit [DecidableEq K] in
/-- A call that is in no run, neither before nor after a move, keeps an owned session settled if
the owner's effects and those of the last run stay intact. -/
theorem Settled.outside (howned : Owned ⟨shared', points.set i point'⟩)
    (hi : points[i]? = some point) (hpoint : point.run? = none) (hpoint' : point'.run? = none)
    (hintact : ∀ j run, Runs points j run →
      Intact flow shared' run ∨ Pending (points.set i point'))
    (hlast : (∀ j run, ¬Runs points j run) →
      ∀ finalized, shared'.lastRelease = some (.completed, finalized) →
        (shared'.lock.isComplete = true
          ∧ ∀ operatorId ∈ finalized, shared'.marked flow operatorId = true)
        ∨ Pending (points.set i point')) :
  Settled flow ⟨shared', points.set i point'⟩
  := by
  constructor
  · apply howned.wf
  · apply howned.held
  · apply howned.owner
  · intro j run hj
    apply hintact j run ((runs_set_of_none hi hpoint hpoint').mp hj)
  · intro hruns
    apply hlast
    intro j run hj
    apply hruns j run ((runs_set_of_none hi hpoint hpoint').mpr hj)

omit [DecidableEq K] in
/-- So does one that leaves the flag and the markers, and is pending afterwards if it was. -/
theorem Settled.idle (h : Settled flow ⟨shared, points⟩)
    (howned : Owned ⟨shared', points.set i point'⟩) (hi : points[i]? = some point)
    (hpoint : point.run? = none) (hpoint' : point'.run? = none)
    (hlock : shared'.lock = shared.lock) (hdurable : shared'.durable = shared.durable)
    (hlast : shared'.lastRelease = shared.lastRelease)
    (hpending : point.pending = true → point'.pending = true) :
  Settled flow ⟨shared', points.set i point'⟩
  := by
  apply Settled.outside howned hi hpoint hpoint'
  · intro j run hj
    obtain hintact | hpend := h.intact j run hj
    · left
      apply hintact.congr _ hdurable
      rw [hlock]
    · right
      apply hpend.set hi hpending
  · intro hruns finalized hrelease
    rw [hlast] at hrelease
    obtain ⟨hcomplete, hmarked⟩ | hpend := h.last hruns finalized hrelease
    · left
      simp only [hlock, Shared.marked, hdurable]
      use hcomplete
      apply hmarked
    · right
      apply hpend.set hi hpending

omit [DecidableEq K] in
/-- So does one that is pending afterwards. -/
theorem Settled.clears (howned : Owned ⟨shared', points.set i point'⟩)
    (hi : points[i]? = some point) (hpoint : point.run? = none) (hpoint' : point'.run? = none)
    (hpending : point'.pending = true) :
  Settled flow ⟨shared', points.set i point'⟩
  := by
  have hpend : Pending (points.set i point') := by
    apply (pending_set hi).mpr
    left
    apply hpending
  apply Settled.outside howned hi hpoint hpoint'
  · intros
    right
    apply hpend
  · intros
    right
    apply hpend

omit [DecidableEq K] in
/-- A granted run has marked nothing. -/
theorem Settled.acquired {spawn : Spawn} {epoch : Epoch} {aggregators : List OperatorId}
    (h : Settled flow ⟨shared, points⟩) (hfree : shared.lock.isLive shared.now = false)
    (hi : points[i]? = some point)
    (howned : Owned ⟨shared', points.set i (.running spawn (.granted K epoch aggregators))⟩) :
  Settled flow ⟨shared', points.set i (.running spawn (.granted K epoch aggregators))⟩
  := by
  constructor
  · apply howned.wf
  · apply howned.held
  · apply howned.owner
  · intro j run hj
    left
    obtain ⟨-, spawn', heq⟩ | ⟨-, hj⟩ := (runs_set hi).mp hj
    · cases heq
      constructor
      · nofun
      · nofun
    · exact absurd hj (h.owned.not_runs hfree)
  · intro hruns
    exact absurd ((runs_self hi).mpr rfl) (hruns i _)

/-- A run that moves keeps what it has marked. -/
theorem Settled.moved_run {m : RunMove K} {spawn : Spawn} (h : Settled flow ⟨shared, points⟩)
    (hi : points[i]? = some (.running spawn run)) (hrun : run.Moved flow shared m shared' run')
    (howned : Owned ⟨shared', points.set i (.running spawn run')⟩) :
  Settled flow ⟨shared', points.set i (.running spawn run')⟩
  := by
  constructor
  · apply howned.wf
  · apply howned.held
  · apply howned.owner
  · intro j run₁ hj
    rw [h.owned.eq_of_set hi hj]
    obtain hintact | hpend := h.intact i run ⟨spawn, hi⟩
    · left
      apply hintact.moved hrun
    · right
      apply hpend.set hi
      nofun
  · intro hnone
    exact absurd ((runs_self hi).mpr rfl) (hnone i run')

omit [DecidableEq K] in
/-- A run that releases leaves what it has marked. -/
theorem Settled.released {spawn : Spawn} {status : Status} (h : Settled flow ⟨shared, points⟩)
    (hi : points[i]? = some (.running spawn run)) (hstage : run.stage = .release status)
    (howned : Owned
      ⟨{ shared with
          lock := shared.lock.release run.epoch
          lastRelease := some (status, run.finalized) },
        points.set i (afterRun spawn run status)⟩) :
  Settled flow
    ⟨{ shared with
        lock := shared.lock.release run.epoch
        lastRelease := some (status, run.finalized) },
      points.set i (afterRun spawn run status)⟩
  := by
  constructor
  · apply howned.wf
  · apply howned.held
  · apply howned.owner
  · intro j run₁ hj
    exact absurd hj (h.owned.not_runs_set hi (run?_afterRun spawn run status))
  · intro _ finalized hlast
    simp only [Option.some.injEq, Prod.mk.injEq] at hlast
    obtain ⟨rfl, rfl⟩ := hlast
    obtain ⟨hcomplete, hmarked⟩ | hpend := h.intact i run ⟨spawn, hi⟩
    · left
      constructor
      · rw [h.owned.release_eq hi]
        apply hcomplete hstage
      · apply hmarked
    · right
      apply hpend.set hi
      nofun

omit [DecidableEq K] in
/-- A call that stands down leaves the owner's effects intact, or another call pending. -/
theorem Settled.standsDown {permitted : List OperatorId} {spawn : Spawn}
    (h : Settled flow ⟨shared, points⟩) (hi : points[i]? = some (.clearing spawn []))
    (hlive : shared.lock.isLive shared.now = true)
    (hclean : StandsDownClean flow ⟨shared, points⟩ (.move i (.acquire permitted)))
    (howned : Owned ⟨shared, points.set i .returned⟩) :
  Settled flow ⟨shared, points.set i .returned⟩
  := by
  have hi' : i ∈ (Action.move i (.acquire permitted)).standsDown? ⟨shared, points⟩ := by
    rw [Action.standsDown?]
    simp only
    rw [LockState.isHeld, if_pos hlive]
    rfl
  apply Settled.outside howned hi rfl rfl
  · rintro j run ⟨spawn', hj⟩
    have hmem : run ∈ points.filterMap Point.run? := by
      apply List.mem_filterMap.mpr
      use .running spawn' run, List.mem_of_getElem? hj
      rfl
    obtain hintact | hother := hclean i hi' run hmem
    · left
      apply hintact
    · right
      obtain ⟨other, hmem, hpending⟩ := List.any_eq_true.mp hother
      obtain ⟨k, hne, hk⟩ := List.mem_eraseIdx_iff_getElem?.mp hmem
      apply (pending_set hi).mpr
      right
      use k, other
  · intro hnone
    obtain ⟨j, run, hj⟩ := h.owner hlive
    exact absurd hj (hnone j run)

/-- A session stays settled if nothing crashes, no lease expires and calls stand down cleanly. -/
theorem Settled.step {action : Action K} (h : Settled flow s) (httl : 0 < flow.ttl)
    (hundisturbed : Undisturbed s action) (hclean : StandsDownClean flow s action)
    (hstep : step flow s action = some s') :
  Settled flow s'
  := by
  have howned := h.owned.step httl hundisturbed hstep
  obtain ⟨ticks, rfl, rfl⟩ | ⟨call, -, rfl⟩
    | ⟨i, m, point, shared', point', rfl, hi, hmoved, rfl⟩ := step_eq_some hstep
  · constructor
    · apply howned.wf
    · apply howned.held
    · apply howned.owner
    · apply h.intact
    · apply h.last
  · constructor
    · apply howned.wf
    · apply howned.held
    · apply howned.owner
    · intro j run hj
      obtain hintact | hpend := h.intact j run (runs_start.mp hj)
      · left
        apply hintact
      · right
        apply hpend.start
    · intro hnone finalized hlast
      obtain hdone | hpend := h.last (fun j run hj => hnone j run (runs_start.mpr hj)) finalized hlast
      · left
        apply hdone
      · right
        apply hpend.start
  · cases hmoved with
    | append => apply h.idle howned hi rfl rfl rfl rfl rfl nofun
    | test => apply h.idle howned hi rfl (Test.run?_next _) rfl rfl rfl nofun
    | wake => apply h.idle howned hi rfl rfl rfl rfl rfl nofun
    | clearComplete => apply Settled.clears howned hi rfl rfl rfl
    | clearContribution => apply Settled.clears howned hi rfl rfl rfl
    | lockHeld hlive => apply h.standsDown hi hlive hclean howned
    | acquired hacquire =>
        apply h.acquired _ hi howned
        apply (LockState.acquire_eq_ok.mp hacquire).1
    | run hrun => apply h.moved_run hi hrun howned
    | release hstage => apply h.released hi hstage howned
    | probeEmpty => apply h.idle howned hi rfl rfl rfl rfl rfl nofun
    | probePending => apply h.idle howned hi rfl rfl rfl rfl rfl nofun
    | crash => exact absurd hundisturbed id

/-- In a run from a completed session without crashes and expired leases, in which no call stands
down while the owner's effects are cleared and no other call is pending: once every call has
returned, and the last run to release has completed, the session is complete and the aggregators
that run finalized are marked. -/
theorem finished_stays_finished {actions : List (Action K)} {s₀ : State K}
    {finalized : Finset OperatorId} (httl : 0 < flow.ttl) (hfinished : Finished flow s₀)
    (hundisturbed : Always (step flow) Undisturbed s₀ actions)
    (hclean : Always (step flow) (StandsDownClean flow) s₀ actions)
    (hrun : TransitionSystem.run (step flow) s₀ actions = some s)
    (hreturned : ∀ point ∈ s.points, point.isReturned = true)
    (hlast : s.shared.lastRelease = some (.completed, finalized)) :
  s.shared.lock.isComplete = true
    ∧ ∀ operatorId ∈ finalized, s.shared.marked flow operatorId = true
  := by
  have hsettled : Settled flow s := by
    have hboth : Always (step flow)
        (fun t action => Undisturbed t action ∧ StandsDownClean flow t action) s₀ actions := by
      intro before action after hsplit t ht
      use hundisturbed before action after hsplit t ht
      apply hclean before action after hsplit t ht
    apply TransitionSystem.run_invariant_of_always _ hfinished.settled hboth hrun
    intro t action t' ht hsteps hnext
    apply ht.step httl hsteps.1 hsteps.2 hnext
  have hruns (i : ℕ) (run : Run K) : ¬Runs s.points i run := by
    rintro ⟨spawn, hi⟩
    cases hreturned _ (List.mem_of_getElem? hi)
  obtain hdone | ⟨i, point, hi, hpending⟩ := hsettled.last hruns finalized hlast
  · apply hdone
  · have hreturned' := hreturned point (List.mem_of_getElem? hi)
    cases point with
    | returned => cases hpending
    | _ => cases hreturned'

instance (s : State K) : ∀ action, Decidable (Undisturbed s action)
  | .elapse ticks => inferInstanceAs (Decidable (∀ lease ∈ s.shared.lock.lease,
    s.shared.now < lease.expiresAt → s.shared.now + ticks < lease.expiresAt))
  | .invoke _ => .isTrue trivial
  | .move _ .crash => .isFalse id
  | .move _ .append => .isTrue trivial
  | .move _ .test => .isTrue trivial
  | .move _ .wake => .isTrue trivial
  | .move _ .clearComplete => .isTrue trivial
  | .move _ .clearContribution => .isTrue trivial
  | .move _ (.acquire _) => .isTrue trivial
  | .move _ (.run _) => .isTrue trivial
  | .move _ .release => .isTrue trivial
  | .move _ .probe => .isTrue trivial

instance (flow : Flow) (s : State K) (action : Action K) :
    Decidable (StandsDownClean flow s action) :=
  inferInstanceAs (Decidable (∀ i ∈ action.standsDown? s, ∀ run ∈ s.points.filterMap Point.run?,
    Intact flow s.shared run ∨ (s.points.eraseIdx i).any Point.pending = true))

/-! ### Two re-opens of a finished session -/

/-- A session whose first run has completed. -/
def finishedSession : State ℕ :=
  (TransitionSystem.run (step reportFlow) (initial ℕ)
    (finalizes ++ [.move 0 (.run .pendingCount), .move 0 (.run .markComplete), .move 0 .release,
      .move 0 .probe])).getD (initial ℕ)

theorem finished_finishedSession :
  Finished reportFlow finishedSession
  := by
  constructor
  · decide
  · decide
  · decide
  · nofun
  · rintro finalized ⟨⟩
    decide

/-- A re-open runs until the session is marked complete. -/
def reopens (i : ℕ) : List (Action ℕ) :=
  [.move i .clearComplete, .move i .clearContribution, .move i (.acquire ["report"]),
    .move i (.run .rehydrate), .move i (.run .aggregate), .move i (.run (.checkAggregator true)),
    .move i (.run (.finalize "report")), .move i (.run (.markContribution "report")),
    .move i (.run .pendingCount), .move i (.run .markComplete)]

/-- Two re-opens, of which the second clears all before the first has marked anything, and stands
down. -/
def reopensEarly : List (Action ℕ) :=
  [.invoke .reopen, .invoke .reopen, .move 1 .test, .move 1 .test, .move 2 .test, .move 2 .test,
      .move 2 .clearComplete, .move 2 .clearContribution]
    ++ (reopens 1).take 3 ++ [.move 2 (.acquire ["report"])] ++ (reopens 1).drop 3
    ++ [.move 1 .release, .move 1 .probe]

/-- The session stays finished. -/
theorem finished_stays_finished_racing :
  ∃ s, TransitionSystem.run (step reportFlow) finishedSession reopensEarly = some s
      ∧ s.shared.lastRelease = some (.completed, {"report"})
      ∧ s.shared.lock.isComplete = true
      ∧ ∀ operatorId ∈ ({"report"} : Finset OperatorId),
        s.shared.marked reportFlow operatorId = true
  := by
  refine ⟨_, rfl, rfl, ?_⟩
  apply @finished_stays_finished ℕ _ reportFlow _ reopensEarly finishedSession
  · decide
  · apply finished_finishedSession
  · decide
  · decide
  · rfl
  · decide
  · rfl

/-- A second re-open passes the same tests, and clears what the first has marked before it finds
the lock held and stands down: the session is left incomplete, and its aggregator unmarked. -/
theorem reopen_clears_finished :
  ¬∀ (flow : Flow) (s₀ s : State ℕ) (actions : List (Action ℕ))
      (finalized : Finset OperatorId), 0 < flow.ttl → Finished flow s₀ →
    Always (step flow) Undisturbed s₀ actions →
    TransitionSystem.run (step flow) s₀ actions = some s →
    (∀ point ∈ s.points, point.isReturned = true) →
    s.shared.lastRelease = some (.completed, finalized) →
    s.shared.lock.isComplete = true
      ∧ ∀ operatorId ∈ finalized, s.shared.marked flow operatorId = true
  := by
  intro h
  have hcomplete := h reportFlow finishedSession _
    ([.invoke .reopen, .invoke .reopen, .move 1 .test, .move 1 .test, .move 2 .test, .move 2 .test]
      ++ reopens 1
      ++ [.move 2 .clearComplete, .move 2 .clearContribution, .move 2 (.acquire ["report"]),
        .move 1 .release, .move 1 .probe])
    {"report"} (by decide) finished_finishedSession (by decide) rfl (by decide) rfl
  revert hcomplete
  decide

end Manager

end Orcastork
