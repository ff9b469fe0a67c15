import Orcastork.Manager.Session

/-!
# Runs and their epochs

What holds of the runs of a session in every reachable state: no run has an epoch the lock has
not minted, no two runs have the same one, and the lease is that of the highest epoch. A run
whose epoch is the highest one is the owner of the session; there is at most one.
-/

namespace Orcastork

namespace Manager

variable {K : Type} [DecidableEq K] {flow : Flow} {shared shared' : Shared K}
  {point point' : Point K} {m : Move K}

/-- The run a call is in. -/
def Point.run? : Point K → Option (Run K)
  | .running _ run => some run
  | _ => none

/-- The epoch of the run a call is in. -/
def Point.epoch? (point : Point K) : Option Epoch := point.run?.map Run.epoch

/-- The call whose run moves, and the move. -/
def Action.runMove? : Action K → Option (ℕ × RunMove K)
  | .move i (.run m) => some (i, m)
  | _ => none

/-- The run a call of the session is in. -/
def runOf (s : State K) (i : ℕ) : Option (Run K) := s.points[i]?.bind Point.run?

/-- A call's run: the call stands in it. -/
def Runs (points : List (Point K)) (i : ℕ) (run : Run K) : Prop :=
  ∃ spawn, points[i]? = some (.running spawn run)

omit [DecidableEq K] in
theorem runOf_eq_some {s : State K} {i : ℕ} {run : Run K} :
  runOf s i = some run ↔ Runs s.points i run
  := by
  rw [runOf, Option.bind_eq_some_iff]
  constructor
  · rintro ⟨point, hpoint, hrun⟩
    cases point with
    | running spawn run' =>
        cases hrun
        use spawn
    | _ => cases hrun
  · rintro ⟨spawn, hpoint⟩
    use .running spawn run, hpoint
    rfl

omit [DecidableEq K] in
/-- A test leads into no run. -/
@[simp]
theorem Test.run?_next (test : Test) :
  (test.next flow shared : Point K).run? = none
  := by
  cases test <;> rw [Test.next] <;> split
  all_goals first | rfl | (split <;> rfl)

omit [DecidableEq K] in
/-- A run that has released is not gone on with. -/
@[simp]
theorem run?_afterRun (spawn : Spawn) (run : Run K) (status : Status) :
  (afterRun spawn run status).run? = none
  := by
  rw [afterRun]
  split
  · rfl
  · rfl

/-- A move takes a call into a run of the next epoch; otherwise it mints nothing, keeps the
epoch of the lease, and leaves the call in its run or takes it out. -/
theorem Moved.epochs (h : Moved flow shared point m shared' point') :
  (point'.epoch? = some (shared.lock.epochCounter + 1)
      ∧ shared'.lock.epochCounter = shared.lock.epochCounter + 1
      ∧ ∀ lease, shared'.lock.lease = some lease →
        lease.epoch = shared.lock.epochCounter + 1)
    ∨ ((point'.epoch? = none ∨ point'.epoch? = point.epoch?)
      ∧ shared'.lock.epochCounter = shared.lock.epochCounter
      ∧ ∀ lease, shared'.lock.lease = some lease →
        ∃ lease', shared.lock.lease = some lease' ∧ lease'.epoch = lease.epoch)
  := by
  have hsame {lock : LockState} (hlease : lock.lease = shared.lock.lease) :
      ∀ lease, lock.lease = some lease →
        ∃ lease', shared.lock.lease = some lease' ∧ lease'.epoch = lease.epoch := by
    intro lease hlease'
    use lease, hlease.symm.trans hlease'
  cases h with
  | test =>
      right
      use Or.inl (congrArg (Option.map Run.epoch) (Test.run?_next _)), rfl
      apply hsame rfl
  | acquired hacquire =>
      left
      obtain ⟨-, rfl, rfl⟩ := LockState.acquire_eq_ok.mp hacquire
      use rfl, rfl
      rintro lease ⟨⟩
      rfl
  | run hrun =>
      right
      obtain ⟨hepoch, -, -⟩ := hrun.frame
      use Or.inr (congrArg some hepoch)
      obtain hlock | ⟨hheld, hlock⟩ | ⟨-, hlock⟩ := hrun.lock
      · rw [hlock]
        use rfl
        apply hsame rfl
      · rw [hlock]
        use rfl
        rintro lease ⟨⟩
        obtain ⟨lease, hlease, hepoch, -⟩ := LockState.heldBy_iff.mp hheld
        use lease, hlease
      · rw [hlock]
        use rfl
        apply hsame rfl
  | @release spawn run status hstage =>
      right
      constructor
      · left
        rw [Point.epoch?, run?_afterRun]
        rfl
      · obtain ⟨hlock, -⟩ | ⟨hlock, -⟩ := LockState.release_eq shared.lock run.epoch
        · simp [hlock]
        · rw [hlock]
          use rfl
          apply hsame rfl
  | _ =>
      right
      use Or.inl rfl, rfl
      apply hsame rfl

/-! ### Where a move leads into a run -/

/-- A call in a run has just acquired the lock, or the run has moved. -/
theorem Moved.running {spawn : Spawn} {run : Run K}
    (h : Moved flow shared point m shared' (.running spawn run)) :
  (∃ permitted epoch lock, point = .clearing spawn [] ∧ m = .acquire permitted
      ∧ shared.lock.acquire flow.sessionId shared.now flow.ttl = .ok (epoch, lock)
      ∧ shared' = { shared with lock := lock }
      ∧ run = .granted K epoch (flow.aggregators.filter (· ∈ permitted)))
    ∨ ∃ run' m', point = .running spawn run' ∧ m = .run m' ∧ run'.Moved flow shared m' shared' run
  := by
  generalize hpoint : Point.running spawn run = point' at h
  have hsame := congrArg Point.run? hpoint
  cases h with
  | test =>
      rw [Test.run?_next] at hsame
      cases hsame
  | release =>
      rw [run?_afterRun] at hsame
      cases hsame
  | acquired hacquire =>
      cases hpoint
      left
      exact ⟨_, _, _, rfl, rfl, hacquire, rfl, rfl⟩
  | run hrun =>
      cases hpoint
      right
      exact ⟨_, _, rfl, rfl, hrun⟩
  | _ => cases hpoint

/-! ### Well-formed states -/

/-- The epochs of runs are minted and distinct, and the lease is the latest one. -/
structure Wf (s : State K) : Prop where
  epoch_le : ∀ i run, Runs s.points i run → run.epoch ≤ s.shared.lock.epochCounter
  epoch_injective : ∀ i j run run', Runs s.points i run → Runs s.points j run' →
    run.epoch = run'.epoch → i = j
  lease_epoch : ∀ lease, s.shared.lock.lease = some lease →
    lease.epoch = s.shared.lock.epochCounter

variable {s s' : State K}

omit [DecidableEq K] in
/-- Which runs there are after a call has moved. -/
theorem runs_set {points : List (Point K)} {i : ℕ} (hi : points[i]? = some point) {j : ℕ}
    {run : Run K} :
  Runs (points.set i point') j run
    ↔ (j = i ∧ ∃ spawn, point' = .running spawn run)
      ∨ (j ≠ i ∧ Runs points j run)
  := by
  simp only [Runs, Threads.getElem?_set_eq_some hi]
  constructor
  · rintro ⟨spawn, ⟨rfl, h⟩ | ⟨hne, h⟩⟩
    · left
      use rfl, spawn
      apply h.symm
    · right
      use hne, spawn
  · rintro (⟨rfl, spawn, h⟩ | ⟨hne, spawn, h⟩)
    · use spawn
      left
      use rfl
      apply h.symm
    · use spawn
      right
      use hne

omit [DecidableEq K] in
/-- A call that was in no run and is in none leaves the runs as they are. -/
theorem runs_set_of_none {points : List (Point K)} {i : ℕ} (hi : points[i]? = some point)
    (hpoint : point.run? = none) (hpoint' : point'.run? = none) {j : ℕ} {run : Run K} :
  Runs (points.set i point') j run ↔ Runs points j run
  := by
  constructor
  · intro h
    obtain ⟨-, spawn, rfl⟩ | ⟨-, h⟩ := (runs_set hi).mp h
    · cases hpoint'
    · apply h
  · rintro ⟨spawn, hj⟩
    apply (runs_set hi).mpr
    right
    constructor
    · rintro rfl
      cases hi.symm.trans hj
      cases hpoint
    · use spawn

/-- The runs there are after a call has moved: those of the other calls, and the call's own if it
has acquired the lock or its run has moved. -/
theorem runs_moved {points : List (Point K)} {i : ℕ} (hi : points[i]? = some point)
    (hmoved : Moved flow shared point m shared' point') {j : ℕ} {run : Run K}
    (hj : Runs (points.set i point') j run) :
  (j ≠ i ∧ Runs points j run)
    ∨ (j = i ∧ ∃ permitted epoch lock, m = .acquire permitted
      ∧ shared.lock.acquire flow.sessionId shared.now flow.ttl = .ok (epoch, lock)
      ∧ shared' = { shared with lock := lock }
      ∧ run = .granted K epoch (flow.aggregators.filter (· ∈ permitted)))
    ∨ (j = i ∧ ∃ run' m', Runs points i run' ∧ m = .run m'
      ∧ run'.Moved flow shared m' shared' run)
  := by
  obtain ⟨rfl, spawn, rfl⟩ | ⟨hne, hj⟩ := (runs_set hi).mp hj
  · obtain ⟨permitted, epoch, lock, -, hm, hacquire, hshared, hrun⟩
      | ⟨run', m', rfl, hm, hrun⟩ := hmoved.running
    · right
      left
      use rfl, permitted, epoch, lock
    · right
      right
      use rfl, run', m'
      constructor
      · use spawn
      · use hm
  · left
    use hne

omit [DecidableEq K] in
/-- A call that begins is in no run. -/
theorem runs_start {points : List (Point K)} {call : Call} {j : ℕ} {run : Run K} :
  Runs (points ++ [call.entry K]) j run ↔ Runs points j run
  := by
  simp only [Runs, Threads.getElem?_start_eq_some]
  constructor
  · rintro ⟨spawn, h | ⟨-, h⟩⟩
    · use spawn
    · cases call <;> cases h
  · rintro ⟨spawn, h⟩
    use spawn
    left
    apply h

omit [DecidableEq K] in
/-- A call that moved into a run is in that run. -/
theorem runs_self {points : List (Point K)} {i : ℕ} (hi : points[i]? = some point)
    {spawn : Spawn} {run run' : Run K} :
  Runs (points.set i (.running spawn run')) i run ↔ run = run'
  := by
  constructor
  · intro h
    obtain ⟨-, spawn', heq⟩ | ⟨hne, -⟩ := (runs_set hi).mp h
    · cases heq
      rfl
    · exact absurd rfl hne
  · rintro rfl
    apply (runs_set hi).mpr
    left
    use rfl, spawn

omit [DecidableEq K] in
/-- The epoch of the run a call stands in. -/
theorem Point.epoch?_running {spawn : Spawn} {run : Run K} (h : point = .running spawn run) :
  point.epoch? = some run.epoch
  := by
  rw [h]
  rfl

/-- A state stays well-formed when a call moves. -/
theorem Wf.moved {points : List (Point K)} {i : ℕ} (h : Wf ⟨shared, points⟩)
    (hi : points[i]? = some point) (hmoved : Moved flow shared point m shared' point') :
  Wf ⟨shared', points.set i point'⟩
  := by
  obtain ⟨hminted, hcounter, hlease⟩ | ⟨hkept, hcounter, hlease⟩ := hmoved.epochs
  · constructor
    · intro j run hruns
      obtain ⟨rfl, spawn, hpoint⟩ | ⟨-, hruns⟩ := (runs_set hi).mp hruns
      · rw [Point.epoch?_running hpoint] at hminted
        rw [Option.some.inj hminted, ← hcounter]
      · apply (h.epoch_le j run hruns).trans
        rw [show shared'.lock.epochCounter = _ from hcounter]
        apply Nat.le_succ
    · have hfresh (j : ℕ) (run run' : Run K) (spawn : Spawn) (hpoint : point' = .running spawn run)
          (hruns : Runs points j run') : run.epoch ≠ run'.epoch := by
        have hle := h.epoch_le j run' hruns
        rw [Point.epoch?_running hpoint] at hminted
        rw [Option.some.inj hminted]
        intro heq
        rw [← heq] at hle
        exact absurd hle (Nat.not_succ_le_self _)
      intro j k run run' hj hk hepoch
      obtain ⟨rfl, spawn, hpoint⟩ | ⟨-, hj'⟩ := (runs_set hi).mp hj
      · obtain ⟨rfl, -⟩ | ⟨-, hk'⟩ := (runs_set hi).mp hk
        · rfl
        · exact absurd hepoch (hfresh k run run' spawn hpoint hk')
      · obtain ⟨rfl, spawn, hpoint⟩ | ⟨-, hk'⟩ := (runs_set hi).mp hk
        · exact absurd hepoch.symm (hfresh j run' run spawn hpoint hj')
        · apply h.epoch_injective j k run run' hj' hk' hepoch
    · intro lease hsome
      rw [hlease lease hsome]
      apply hcounter.symm
  · have hbefore (run : Run K) (spawn : Spawn) (hpoint : point' = .running spawn run) :
        ∃ run', Runs points i run' ∧ run'.epoch = run.epoch := by
      rw [Point.epoch?_running hpoint] at hkept
      obtain hnone | hsame := hkept
      · cases hnone
      · cases point with
        | running spawn' run' =>
            use run', ⟨spawn', hi⟩
            apply (Option.some.inj hsame).symm
        | _ => cases hsame
    have hruns_before (j : ℕ) (run : Run K) (hj : Runs (points.set i point') j run) :
        ∃ run', Runs points j run' ∧ run'.epoch = run.epoch := by
      obtain ⟨rfl, spawn, hpoint⟩ | ⟨-, hj⟩ := (runs_set hi).mp hj
      · apply hbefore run spawn hpoint
      · use run, hj
    constructor
    · intro j run hj
      obtain ⟨run', hj', hepoch⟩ := hruns_before j run hj
      rw [← hepoch]
      apply (h.epoch_le j run' hj').trans_eq hcounter.symm
    · intro j k run run' hj hk hepoch
      obtain ⟨run₁, hj', hepoch₁⟩ := hruns_before j run hj
      obtain ⟨run₂, hk', hepoch₂⟩ := hruns_before k run' hk
      apply h.epoch_injective j k run₁ run₂ hj' hk'
      rw [hepoch₁, hepoch₂, hepoch]
    · intro lease hsome
      obtain ⟨lease', hsome', hepoch⟩ := hlease lease hsome
      rw [← hepoch]
      apply (h.lease_epoch lease' hsome').trans hcounter.symm

/-- A state stays well-formed. -/
theorem Wf.step {action : Action K} (h : Wf s) (hstep : step flow s action = some s') :
  Wf s'
  := by
  obtain ⟨ticks, -, rfl⟩ | ⟨call, -, rfl⟩ | ⟨i, m, point, shared', point', -, hi, hmoved, rfl⟩ :=
    step_eq_some hstep
  · constructor
    · apply h.epoch_le
    · apply h.epoch_injective
    · apply h.lease_epoch
  · constructor
    · intro i run hruns
      apply h.epoch_le i run (runs_start.mp hruns)
    · intro i j run run' hi hj
      apply h.epoch_injective i j run run' (runs_start.mp hi) (runs_start.mp hj)
    · apply h.lease_epoch
  · apply h.moved hi hmoved

omit [DecidableEq K] in
/-- The owner of a session is the only one. -/
theorem Wf.owner_unique {i j : ℕ} {run run' : Run K} (h : Wf s) (hi : Runs s.points i run)
    (hj : Runs s.points j run')
    (hrun : run.epoch = s.shared.lock.epochCounter)
    (hrun' : run'.epoch = s.shared.lock.epochCounter) :
  i = j
  := by
  apply h.epoch_injective i j run run' hi hj
  rw [hrun, hrun']

omit [DecidableEq K] in
/-- With no calls, a lease of the latest epoch is all it takes. -/
theorem wf_of_no_runs (hruns : ∀ i run, ¬Runs s.points i run)
    (hlease : ∀ lease, s.shared.lock.lease = some lease →
      lease.epoch = s.shared.lock.epochCounter) :
  Wf s
  := by
  constructor
  · intro i run hi
    exact absurd hi (hruns i run)
  · intro i j run run' hi
    exact absurd hi (hruns i run)
  · apply hlease

omit [DecidableEq K] in
/-- Nothing runs when there are no calls. -/
theorem not_runs_initial (i : ℕ) (run : Run K) :
  ¬Runs (initial K).points i run
  := by
  rintro ⟨spawn, h⟩
  rw [initial, List.getElem?_nil] at h
  cases h

end Manager

end Orcastork
