import Orcastork.Adapters.Memory.LockSafety
import Orcastork.Adapters.Memory.Store
import Orcastork.Library.Interleaving

/-!
# The budget of a session

A session has one budget of time to gather in, however often it parks, crashes and is resumed: the
first gather persists a deadline, and each later run counts down to that
(`_remaining_session_budget`). A run that re-opens the session, and a re-drive within a run, gather
for a fresh budget instead. The runs of the session, on any pods, are threads; the deadline is read
and written by calls of their own, with anything between them. Where a run holds the lock while it
reads and writes the deadline, none is written but by the first gather and by those for a fresh
budget, and no run gathers longer than to a deadline that was written
(`session_budget_granted_once`).

The clocks agree and count ticks.
-/

namespace Orcastork

namespace SessionBudget

open TransitionSystem

/-- A run of the session that has the lock. -/
structure Owner where
  epoch : Epoch
  /-- `session_deadline` of its flow. -/
  sessionDeadline : ℕ
  /-- It re-opens a completed session, or is re-driven. -/
  freshDeadline : Bool
  deriving DecidableEq, Repr

/-- `_prepare_redrive`: the next gather is for a fresh budget. -/
def Owner.redriven (owner : Owner) : Owner := { owner with freshDeadline := true }

/-- A deadline that was written: a full budget from some time on. -/
structure Grant where
  grantedAt : ℕ
  sessionDeadline : ℕ
  deriving DecidableEq, Repr

/-- The deadline. -/
def Grant.deadline (grant : Grant) : Timestamp := grant.grantedAt + grant.sessionDeadline

/-- Where a run stands. -/
inductive Point where
  | spawned (sessionDeadline : ℕ) (freshDeadline : Bool)
  /-- The lock is acquired, and `_gather` not begun. -/
  | entered (owner : Owner)
  /-- `_gather` has begun at a reading of the monotonic clock, and is about to read the deadline. -/
  | reading (owner : Owner) (started : ℕ)
  /-- About to write a deadline, counted from a reading of the wall clock. -/
  | writing (owner : Owner) (started readAt : ℕ)
  /-- In the loop, as long as the monotonic clock is before the deadline. -/
  | gathering (owner : Owner) (deadline : ℤ)
  | ended
  deriving DecidableEq, Repr

/-- What the runs of a session share. -/
structure Shared where
  lock : LockState
  store : SessionState
  now : ℕ
  /-- The deadlines that were written, in order. -/
  granted : List Grant
  /-- How often a run of a re-open, or a re-drive, has begun to gather. -/
  freshGathers : ℕ

/-- The moves of a run. -/
inductive Move where
  | acquire
  /-- `_gather` begins, in a re-drive once more on the same epoch. -/
  | gather
  | read
  | write
  /-- Another guarded write to the store. -/
  | store
  | renew
  /-- The run parks or completes, and releases the lock. -/
  | release
  | crash
  deriving DecidableEq, Repr

/-- The run that has the lock, or had it. -/
def Point.owner? : Point → Option Owner
  | .spawned _ _ | .ended => none
  | .entered owner | .reading owner _ | .writing owner _ _ | .gathering owner _ => some owner

/-- A run that is about to find out its budget. -/
def Point.opening? : Point → Option Owner
  | .spawned _ _ | .ended | .entered _ | .gathering _ _ => none
  | .reading owner _ | .writing owner _ _ => some owner

/-- A run that has begun to gather. -/
def Shared.begin' (shared : Shared) (owner : Owner) : Shared × Point :=
  ({ shared with freshGathers := shared.freshGathers + if owner.freshDeadline then 1 else 0 },
    .reading owner shared.now)

/-- A move of a run, if it is open to it. -/
def move (sessionId : SessionId) (ttl : ℕ+) (shared : Shared) :
    Point → Move → Option (Shared × Point)
  | .spawned sessionDeadline freshDeadline, .acquire =>
    match shared.lock.acquire sessionId shared.now ttl with
    | .error _ => some (shared, .ended)
    | .ok (epoch, lock) =>
      some ({ shared with lock := lock }, .entered ⟨epoch, sessionDeadline, freshDeadline⟩)
  | .entered owner, .gather => some (shared.begin' owner)
  | .gathering owner _, .gather => some (shared.begin' owner.redriven)
  | .reading owner started, .read =>
    match owner.freshDeadline, shared.store.deadline with
    | false, some stored => some (shared, .gathering owner (started + (stored - shared.now)))
    | _, _ => some (shared, .writing owner started shared.now)
  | .writing owner started readAt, .write =>
    let grant : Grant := ⟨readAt, owner.sessionDeadline⟩
    match shared.store.setSessionDeadline grant.deadline owner.epoch with
    | .error _ => some ({ shared with lock := shared.lock.release owner.epoch }, .ended)
    | .ok store =>
      some ({ shared with store := store, granted := shared.granted ++ [grant] },
        .gathering owner (started + owner.sessionDeadline))
  | point, .store =>
    match point.owner? with
    | none => none
    | some owner =>
      match shared.store.guardEpoch owner.epoch with
      | .error _ => some ({ shared with lock := shared.lock.release owner.epoch }, .ended)
      | .ok store => some ({ shared with store := store }, point)
  | point, .renew =>
    match point.owner? with
    | none => none
    | some owner =>
      match shared.lock.renew sessionId owner.epoch shared.now ttl with
      | .error _ => some ({ shared with lock := shared.lock.release owner.epoch }, .ended)
      | .ok lock => some ({ shared with lock := lock }, point)
  | point, .release =>
    match point.owner? with
    | none => none
    | some owner => some ({ shared with lock := shared.lock.release owner.epoch }, .ended)
  | _, .crash => some (shared, .ended)
  | _, _ => none

/-- The runs of the session. -/
abbrev State := Threads Shared Point

/-- What can happen: a run is spawned, or makes a move, and time goes by. -/
inductive Action where
  | spawn (sessionDeadline : ℕ) (freshDeadline : Bool)
  | move (run : ℕ) (move : Move)
  | elapse (ticks : ℕ)
  deriving DecidableEq, Repr

/-- One action. -/
def step (sessionId : SessionId) (ttl : ℕ+) (s : State) : Action → Option State
  | .spawn sessionDeadline freshDeadline => some (s.start (.spawned sessionDeadline freshDeadline))
  | .move i m => s.advance (move sessionId ttl) i m
  | .elapse ticks => some { s with shared := { s.shared with now := s.shared.now + ticks } }

/-- A session nothing was done with yet. -/
def initial : State := ⟨⟨.initial, .initial, 0, [], 0⟩, []⟩

/-- Whoever reads and writes the deadline holds the lock. -/
def Undisturbed (s : State) : Prop :=
  ∀ point ∈ s.points, ∀ owner ∈ point.opening?, s.shared.lock.HoldsLive s.shared.now owner.epoch

theorem holdsLive_iff {lock : LockState} {now : ℕ} {epoch : Epoch} :
  lock.lease.any (fun lease => lease.epoch = epoch ∧ now < lease.expiresAt) = true
    ↔ lock.HoldsLive now epoch
  := by
  rw [Option.any_eq_true, LockState.HoldsLive]
  simp only [decide_eq_true_eq]

instance decidableHoldsLive (lock : LockState) (now : ℕ) (epoch : Epoch) :
    Decidable (lock.HoldsLive now epoch) :=
  decidable_of_iff _ holdsLive_iff

instance decidableUndisturbed (s : State) : Decidable (Undisturbed s) :=
  inferInstanceAs (Decidable (∀ point ∈ s.points, ∀ owner ∈ point.opening?,
    s.shared.lock.HoldsLive s.shared.now owner.epoch))

/-! ### What a move can do -/

variable {sessionId : SessionId} {ttl : ℕ+}

/-- Everything a move of a run can do. -/
inductive Moved (sessionId : SessionId) (ttl : ℕ+) (shared : Shared) :
    Point → Shared → Point → Prop where
  | acquired {sessionDeadline : ℕ} {freshDeadline : Bool} {epoch : Epoch} {lock : LockState}
      (hacquire : shared.lock.acquire sessionId shared.now ttl = .ok (epoch, lock)) :
      Moved sessionId ttl shared (.spawned sessionDeadline freshDeadline)
        { shared with lock := lock } (.entered ⟨epoch, sessionDeadline, freshDeadline⟩)
  | began {point : Point} {held owner : Owner} (howner : point.owner? = some held)
      (hepoch : owner.epoch = held.epoch) :
      Moved sessionId ttl shared point (shared.begin' owner).1 (.reading owner shared.now)
  /-- A deadline is there, and the run counts down to it. -/
  | reads {owner : Owner} {started : ℕ} {stored : Timestamp}
      (hstored : shared.store.deadline = some stored) :
      Moved sessionId ttl shared (.reading owner started) shared
        (.gathering owner (started + (stored - shared.now)))
  | computes {owner : Owner} {started : ℕ}
      (hnone : owner.freshDeadline = false → shared.store.deadline = none) :
      Moved sessionId ttl shared (.reading owner started) shared
        (.writing owner started shared.now)
  | writes {owner : Owner} {started readAt : ℕ} {store : SessionState}
      (hstore : store.deadline = some (Grant.deadline ⟨readAt, owner.sessionDeadline⟩)) :
      Moved sessionId ttl shared (.writing owner started readAt)
        { shared with
          store := store
          granted := shared.granted ++ [⟨readAt, owner.sessionDeadline⟩] }
        (.gathering owner (started + owner.sessionDeadline))
  /-- Another write, or a renewal. -/
  | stays {point : Point} {store : SessionState} {lock : LockState}
      (hstore : store.deadline = shared.store.deadline)
      (hlock : lock.epochCounter = shared.lock.epochCounter) :
      Moved sessionId ttl shared point { shared with store := store, lock := lock } point
  | leaves {point : Point} {lock : LockState}
      (hlock : lock.epochCounter = shared.lock.epochCounter) :
      Moved sessionId ttl shared point { shared with lock := lock } .ended

theorem deadline_guardEpoch {store store' : SessionState} {epoch : Epoch}
    (h : store.guardEpoch epoch = .ok store') :
  store'.deadline = store.deadline
  := by
  rw [SessionState.guardEpoch] at h
  split at h
  · cases h
  · cases h
    rfl

theorem deadline_setSessionDeadline {store store' : SessionState} {deadline : Timestamp}
    {epoch : Epoch} (h : store.setSessionDeadline deadline epoch = .ok store') :
  store'.deadline = some deadline
  := by
  rw [SessionState.setSessionDeadline] at h
  cases hguard : store.guardEpoch epoch with
  | error error =>
      rw [hguard] at h
      cases h
  | ok guarded =>
      rw [hguard] at h
      cases h
      rfl

theorem moved_of_move {shared shared' : Shared} {point point' : Point} {m : Move}
    (h : move sessionId ttl shared point m = some (shared', point')) :
  Moved sessionId ttl shared point shared' point'
  := by
  have hstore : ∀ owner : Owner, (match shared.store.guardEpoch owner.epoch with
        | .error _ => some ({ shared with lock := shared.lock.release owner.epoch }, Point.ended)
        | .ok store => some ({ shared with store := store }, point)) = some (shared', point') →
      Moved sessionId ttl shared point shared' point' := by
    intro owner h
    split at h
    · cases h
      apply Moved.leaves (LockState.currentEpoch_release _ _)
    · rename_i hguard
      cases h
      apply Moved.stays (deadline_guardEpoch hguard) rfl
  have hrenew : ∀ owner : Owner, (match shared.lock.renew sessionId owner.epoch shared.now ttl with
        | .error _ => some ({ shared with lock := shared.lock.release owner.epoch }, Point.ended)
        | .ok lock => some ({ shared with lock := lock }, point)) = some (shared', point') →
      Moved sessionId ttl shared point shared' point' := by
    intro owner h
    split at h
    · cases h
      apply Moved.leaves (LockState.currentEpoch_release _ _)
    · rename_i hrenewed
      obtain ⟨lease, -, -, -, hlock⟩ := LockState.renew_eq_ok.mp hrenewed
      have hcounter := congrArg LockState.epochCounter hlock
      cases h
      exact Moved.stays rfl hcounter
  cases m with
  | acquire =>
      cases point with
      | spawned sessionDeadline freshDeadline =>
          rw [move] at h
          split at h
          · cases h
            apply Moved.leaves rfl
          · rename_i hacquire
            cases h
            apply Moved.acquired hacquire
      | entered owner | reading owner started | writing owner started readAt
      | gathering owner deadline | ended => cases h
  | gather =>
      cases point with
      | entered owner =>
          cases h
          exact Moved.began rfl rfl
      | gathering owner deadline =>
          cases h
          exact Moved.began rfl rfl
      | spawned sessionDeadline freshDeadline | reading owner started
      | writing owner started readAt | ended => cases h
  | read =>
      cases point with
      | reading owner started =>
          rw [move] at h
          split at h
          · rename_i hstored
            cases h
            apply Moved.reads hstored
          · rename_i hnot
            cases h
            apply Moved.computes
            intro hfresh
            cases hstored : shared.store.deadline with
            | none => rfl
            | some stored => cases hnot stored hfresh hstored
      | spawned sessionDeadline freshDeadline | entered owner | writing owner started readAt
      | gathering owner deadline | ended => cases h
  | write =>
      cases point with
      | writing owner started readAt =>
          rw [move] at h
          split at h
          · cases h
            apply Moved.leaves (LockState.currentEpoch_release _ _)
          · rename_i hwrite
            cases h
            apply Moved.writes (deadline_setSessionDeadline hwrite)
      | spawned sessionDeadline freshDeadline | entered owner | reading owner started
      | gathering owner deadline | ended => cases h
  | store =>
      cases point with
      | spawned sessionDeadline freshDeadline => cases h
      | ended => cases h
      | entered owner | reading owner started | writing owner started readAt
      | gathering owner deadline => apply hstore owner h
  | renew =>
      cases point with
      | spawned sessionDeadline freshDeadline => cases h
      | ended => cases h
      | entered owner | reading owner started | writing owner started readAt
      | gathering owner deadline => apply hrenew owner h
  | release =>
      cases point with
      | spawned sessionDeadline freshDeadline => cases h
      | ended => cases h
      | entered owner | reading owner started | writing owner started readAt
      | gathering owner deadline =>
          cases h
          apply Moved.leaves (LockState.currentEpoch_release _ _)
  | crash =>
      cases point with
      | spawned sessionDeadline freshDeadline | entered owner | reading owner started
      | writing owner started readAt | gathering owner deadline | ended =>
          cases h
          apply Moved.leaves rfl

/-! ### What holds of the runs -/

/-- What a run goes by, where it stands. -/
def Grounded (shared : Shared) : Point → Prop
  | .reading owner started => started ≤ shared.now
    ∧ (owner.freshDeadline = true → shared.granted.length ≤ shared.freshGathers)
  | .writing owner started readAt => started ≤ readAt ∧ readAt ≤ shared.now
    ∧ (owner.freshDeadline = true → shared.granted.length ≤ shared.freshGathers)
    ∧ (owner.freshDeadline = false → shared.granted = [])
  | .gathering _ deadline => ∃ grant ∈ shared.granted, grant.grantedAt ≤ shared.now
    ∧ deadline ≤ grant.deadline
  | .spawned _ _ | .entered _ | .ended => True

/-- What holds of the session and its runs. -/
structure Budgeted (s : State) : Prop where
  bounded : ∀ point ∈ s.points, ∀ owner, point.owner? = some owner →
    owner.epoch ≤ s.shared.lock.epochCounter
  distinct : ∀ (i j : ℕ) point other, i ≠ j → s.points[i]? = some point →
    s.points[j]? = some other → ∀ owner owner', point.owner? = some owner →
      other.owner? = some owner' → owner.epoch ≠ owner'.epoch
  stored : s.shared.store.deadline = s.shared.granted.getLast?.map Grant.deadline
  past : ∀ grant ∈ s.shared.granted, grant.grantedAt ≤ s.shared.now
  counted : s.shared.granted.length ≤ 1 + s.shared.freshGathers
  grounded : ∀ point ∈ s.points, Grounded s.shared point

theorem owner?_of_opening? {point : Point} {owner : Owner} (h : point.opening? = some owner) :
  point.owner? = some owner
  := by
  cases point with
  | spawned sessionDeadline freshDeadline => cases h
  | entered owner => cases h
  | gathering owner deadline => cases h
  | ended => cases h
  | reading owner started => apply h
  | writing owner started readAt => apply h

/-- A point goes on as it did where no deadline is written. -/
theorem Grounded.later {shared shared' : Shared} {point : Point} (h : Grounded shared point)
    (hnow : shared.now ≤ shared'.now) (hgranted : shared'.granted = shared.granted)
    (hgathers : shared.freshGathers ≤ shared'.freshGathers) :
  Grounded shared' point
  := by
  cases point with
  | spawned sessionDeadline freshDeadline => trivial
  | entered owner => trivial
  | ended => trivial
  | reading owner started =>
      use le_trans h.1 hnow
      intro hfresh
      rw [hgranted]
      apply le_trans (h.2 hfresh) hgathers
  | writing owner started readAt =>
      obtain ⟨hstarted, hread, hfresh, hfirst⟩ := h
      refine ⟨hstarted, le_trans hread hnow, ?_, ?_⟩
      · intro hfreshRun
        rw [hgranted]
        apply le_trans (hfresh hfreshRun) hgathers
      · intro hresumes
        rw [hgranted]
        apply hfirst hresumes
  | gathering owner deadline =>
      obtain ⟨grant, hgrant, hat, hle⟩ := h
      use grant
      rw [hgranted]
      use hgrant, le_trans hat hnow

/-- A point that is not about to find out its budget goes on where a deadline is written. -/
theorem Grounded.written {shared : Shared} {point : Point} (h : Grounded shared point)
    (hopening : point.opening? = none) (store : SessionState) (grant : Grant) :
  Grounded { shared with store := store, granted := shared.granted ++ [grant] } point
  := by
  cases point with
  | spawned sessionDeadline freshDeadline => trivial
  | entered owner => trivial
  | ended => trivial
  | reading owner started => cases hopening
  | writing owner started readAt => cases hopening
  | gathering owner deadline =>
      obtain ⟨earlier, hmem, hat, hle⟩ := h
      use earlier, List.mem_append_left _ hmem

namespace Budgeted

variable {s : State} {i : ℕ} {point point' : Point} {shared' : Shared}

/-- Only one run is about to find out its budget, where nobody is disturbed. -/
theorem exclusive (h : Budgeted s) (hundisturbed : Undisturbed s) (hi : s.points[i]? = some point)
    {owner : Owner} (howner : point.opening? = some owner) {j : ℕ} {other : Point} (hne : j ≠ i)
    (hj : s.points[j]? = some other) :
  other.opening? = none
  := by
  cases hother : other.opening? with
  | none => rfl
  | some owner' =>
      obtain ⟨lease, hlease, hepoch, -⟩ :=
        hundisturbed point (List.mem_of_getElem? hi) owner howner
      obtain ⟨lease', hlease', hepoch', -⟩ :=
        hundisturbed other (List.mem_of_getElem? hj) owner' hother
      obtain rfl := Option.some.inj (hlease.symm.trans hlease')
      cases h.distinct i j point other (Ne.symm hne) hi hj owner owner' (owner?_of_opening? howner)
        (owner?_of_opening? hother) (hepoch.symm.trans hepoch')

/-- A run goes on with the epoch it has, and nothing is written. -/
theorem goOn (h : Budgeted s) (hi : s.points[i]? = some point)
    (howner : ∀ owner, point'.owner? = some owner →
      ∃ held, point.owner? = some held ∧ owner.epoch = held.epoch)
    (hlock : shared'.lock.epochCounter = s.shared.lock.epochCounter)
    (hstore : shared'.store.deadline = s.shared.store.deadline)
    (hnow : s.shared.now ≤ shared'.now) (hgranted : shared'.granted = s.shared.granted)
    (hgathers : s.shared.freshGathers ≤ shared'.freshGathers) (hpoint : Grounded shared' point') :
  Budgeted ⟨shared', s.points.set i point'⟩
  := by
  constructor
  · intro other hother owner hown
    rw [hlock]
    rcases List.mem_or_eq_of_mem_set hother with hother | rfl
    · apply h.bounded other hother owner hown
    · obtain ⟨held, hheld, hepoch⟩ := howner owner hown
      rw [hepoch]
      apply h.bounded point (List.mem_of_getElem? hi) held hheld
  · apply Threads.pairwise_set (R := fun p q => ∀ owner owner', p.owner? = some owner →
      q.owner? = some owner' → owner.epoch ≠ owner'.epoch) _ hi h.distinct
    · intro j q hne hj owner owner' hown hown'
      obtain ⟨held, hheld, hepoch⟩ := howner owner hown
      rw [hepoch]
      apply h.distinct i j point q (Ne.symm hne) hi hj held owner' hheld hown'
    · intro p q hpq owner owner' hown hown'
      apply (hpq owner' owner hown' hown).symm
  · rw [hstore, hgranted]
    apply h.stored
  · rw [hgranted]
    intro grant hgrant
    apply le_trans (h.past grant hgrant) hnow
  · rw [hgranted]
    apply le_trans h.counted (Nat.add_le_add_left hgathers 1)
  · intro other hother
    rcases List.mem_or_eq_of_mem_set hother with hother | rfl
    · apply (h.grounded other hother).later hnow hgranted hgathers
    · apply hpoint

/-- The lock is granted for an epoch no run has. -/
theorem acquired (h : Budgeted s) {sessionDeadline : ℕ} {freshDeadline : Bool} {epoch : Epoch}
    {lock : LockState} (hi : s.points[i]? = some (.spawned sessionDeadline freshDeadline))
    (hacquire : s.shared.lock.acquire sessionId s.shared.now ttl = .ok (epoch, lock)) :
  Budgeted ⟨{ s.shared with lock := lock },
    s.points.set i (.entered ⟨epoch, sessionDeadline, freshDeadline⟩)⟩
  := by
  obtain ⟨-, rfl, rfl⟩ := LockState.acquire_eq_ok.mp hacquire
  constructor
  · intro other hother owner hown
    rcases List.mem_or_eq_of_mem_set hother with hother | rfl
    · apply le_trans (h.bounded other hother owner hown) (Nat.le_succ _)
    · obtain rfl := Option.some.inj hown
      apply le_refl
  · apply Threads.pairwise_set (R := fun p q => ∀ owner owner', p.owner? = some owner →
      q.owner? = some owner' → owner.epoch ≠ owner'.epoch) _ hi h.distinct
    · intro j q hne hj owner owner' hown hown'
      obtain rfl := Option.some.inj hown
      apply Nat.ne_of_gt
      apply Nat.lt_succ_of_le
      apply h.bounded q (List.mem_of_getElem? hj) owner' hown'
    · intro p q hpq owner owner' hown hown'
      apply (hpq owner' owner hown' hown).symm
  · apply h.stored
  · apply h.past
  · apply h.counted
  · intro other hother
    rcases List.mem_or_eq_of_mem_set hother with hother | rfl
    · apply (h.grounded other hother).later (le_refl _) rfl (le_refl _)
    · trivial

/-- A deadline is written by the only run that could, the first or one for a fresh budget. -/
theorem writes (h : Budgeted s) (hundisturbed : Undisturbed s) {owner : Owner}
    {started readAt : ℕ} {store : SessionState}
    (hi : s.points[i]? = some (.writing owner started readAt))
    (hstore : store.deadline = some (Grant.deadline ⟨readAt, owner.sessionDeadline⟩)) :
  Budgeted ⟨{ s.shared with
      store := store
      granted := s.shared.granted ++ [⟨readAt, owner.sessionDeadline⟩] },
    s.points.set i (.gathering owner (started + owner.sessionDeadline))⟩
  := by
  obtain ⟨hstarted, hread, hfresh, hfirst⟩ := h.grounded _ (List.mem_of_getElem? hi)
  constructor
  · intro other hother owner' hown
    rcases List.mem_or_eq_of_mem_set hother with hother | rfl
    · apply h.bounded other hother owner' hown
    · apply h.bounded _ (List.mem_of_getElem? hi) owner' hown
  · apply Threads.pairwise_set (R := fun p q => ∀ owner owner', p.owner? = some owner →
      q.owner? = some owner' → owner.epoch ≠ owner'.epoch) _ hi h.distinct
    · intro j q hne hj owner₁ owner₂ hown hown'
      apply h.distinct i j _ q (Ne.symm hne) hi hj owner₁ owner₂ hown hown'
    · intro p q hpq owner owner' hown hown'
      apply (hpq owner' owner hown' hown).symm
  · rw [List.getLast?_append, List.getLast?_singleton, Option.some_or]
    apply hstore
  · intro grant hgrant
    rcases List.mem_append.mp hgrant with hgrant | hgrant
    · apply h.past grant hgrant
    · rw [List.mem_singleton.mp hgrant]
      apply hread
  · rw [List.length_append, List.length_singleton, Nat.add_comm]
    apply Nat.add_le_add_left
    cases howner : owner.freshDeadline with
    | true => apply hfresh howner
    | false =>
        rw [hfirst howner]
        apply Nat.zero_le
  · intro other hother
    obtain ⟨j, hj⟩ := List.mem_iff_getElem?.mp hother
    obtain ⟨-, rfl⟩ | ⟨hne, hj⟩ := (Threads.getElem?_set_eq_some hi).mp hj
    · use ⟨readAt, owner.sessionDeadline⟩, List.mem_append_right _ (List.mem_singleton_self _), hread
      rw [Grant.deadline]
      have hbefore : (started : ℤ) ≤ readAt := by exact_mod_cast hstarted
      apply Int.add_le_add_right hbefore
    · have hopening := h.exclusive hundisturbed hi rfl hne hj
      exact (h.grounded other (List.mem_of_getElem? hj)).written hopening _ _

theorem step {s' : State} {action : Action} (h : Budgeted s) (hundisturbed : Undisturbed s)
    (hstep : SessionBudget.step sessionId ttl s action = some s') :
  Budgeted s'
  := by
  cases action with
  | spawn sessionDeadline freshDeadline =>
      obtain rfl := Option.some.inj hstep
      constructor
      · intro other hother owner hown
        rcases List.mem_append.mp hother with hother | hother
        · apply h.bounded other hother owner hown
        · rw [List.mem_singleton.mp hother] at hown
          cases hown
      · intro j k p q hne hj hk owner owner' hown hown'
        rcases Threads.getElem?_start_eq_some.mp hj with hj | ⟨-, rfl⟩
        · rcases Threads.getElem?_start_eq_some.mp hk with hk | ⟨-, rfl⟩
          · apply h.distinct j k p q hne hj hk owner owner' hown hown'
          · cases hown'
        · cases hown
      · apply h.stored
      · apply h.past
      · apply h.counted
      · intro other hother
        rcases List.mem_append.mp hother with hother | hother
        · apply h.grounded other hother
        · rw [List.mem_singleton.mp hother]
          trivial
  | elapse ticks =>
      obtain rfl := Option.some.inj hstep
      constructor
      · apply h.bounded
      · apply h.distinct
      · apply h.stored
      · intro grant hgrant
        apply le_trans (h.past grant hgrant) (Nat.le_add_right s.shared.now ticks)
      · apply h.counted
      · intro other hother
        exact (h.grounded other hother).later (Nat.le_add_right s.shared.now ticks) rfl (le_refl _)
  | move i m =>
      obtain ⟨point, shared', point', hi, hmove, rfl⟩ := Threads.advance_eq_some.mp hstep
      have hmem := List.mem_of_getElem? hi
      have hgrounded := h.grounded point hmem
      have hsame : ∀ owner, point.owner? = some owner →
          ∃ held, point.owner? = some held ∧ owner.epoch = held.epoch := by
        intro owner hown
        use owner, hown
      cases moved_of_move hmove with
      | acquired hacquire => apply h.acquired hi hacquire
      | @began _ held owner howner hepoch =>
          have hown : ∀ owner', (Point.reading owner s.shared.now).owner? = some owner' →
              ∃ held, point.owner? = some held ∧ owner'.epoch = held.epoch := by
            intro owner' hown
            obtain rfl := Option.some.inj hown
            use held, howner, hepoch
          have hbegun : Grounded (s.shared.begin' owner).1 (.reading owner s.shared.now) := by
            use le_refl _
            intro hfresh
            rw [Shared.begin', hfresh]
            dsimp only
            rw [if_pos rfl, Nat.add_comm]
            apply h.counted
          exact h.goOn hi hown rfl rfl (le_refl _) rfl (Nat.le_add_right _ _) hbegun
      | @reads owner started stored hstored =>
          refine h.goOn hi hsame rfl rfl (le_refl _) rfl (le_refl _) ?_
          rw [h.stored, Option.map_eq_some_iff] at hstored
          obtain ⟨grant, hlast, rfl⟩ := hstored
          have hgrant := List.mem_of_getLast? hlast
          have hstarted : (started : ℤ) ≤ s.shared.now := by exact_mod_cast hgrounded.1
          use grant, hgrant, h.past grant hgrant
          omega
      | computes hnone =>
          refine h.goOn hi hsame rfl rfl (le_refl _) rfl (le_refl _) ?_
          refine ⟨hgrounded.1, le_refl _, hgrounded.2, ?_⟩
          intro hfresh
          rw [h.stored, Option.map_eq_none_iff] at hnone
          apply List.getLast?_eq_none_iff.mp (hnone hfresh)
      | writes hstore => apply h.writes hundisturbed hi hstore
      | stays hstore hlock =>
          refine h.goOn hi hsame hlock hstore (le_refl _) rfl (le_refl _) ?_
          apply hgrounded.later (le_refl _) rfl (le_refl _)
      | leaves hlock =>
          refine h.goOn hi ?_ hlock rfl (le_refl _) rfl (le_refl _) trivial
          intro owner hown
          cases hown

end Budgeted

/-- However the runs of a session interleave, and wherever they park or crash, if each holds the lock
while it finds out its budget: no more budgets are granted than one and one for each gathering of a
run that re-opens the session and each of a re-drive, and the deadline that is stored is that of the
last. A run gathers to a deadline that was granted and no longer; where no run has re-opened the
session and none was re-driven, that is the one stored by the first gather. -/
theorem session_budget_granted_once {actions : List Action} {s : State}
    (hundisturbed : Throughout (step sessionId ttl) Undisturbed initial actions)
    (hrun : run (step sessionId ttl) initial actions = some s) :
  s.shared.granted.length ≤ 1 + s.shared.freshGathers
    ∧ s.shared.store.deadline = s.shared.granted.getLast?.map Grant.deadline
    ∧ (∀ owner deadline, .gathering owner deadline ∈ s.points →
      ∃ grant ∈ s.shared.granted, grant.grantedAt ≤ s.shared.now ∧ deadline ≤ grant.deadline)
    ∧ (s.shared.freshGathers = 0 → ∀ owner deadline, .gathering owner deadline ∈ s.points →
      ∃ stored, s.shared.store.deadline = some stored ∧ deadline ≤ stored)
  := by
  have h : Budgeted s := by
    have hinitial : Budgeted initial := by
      constructor
      · nofun
      · intro i j point other hne hi
        cases hi
      · rfl
      · nofun
      · apply Nat.zero_le
      · nofun
    apply run_invariant_of_throughout _ hinitial hundisturbed hrun
    intro s action s' hs hundisturbed hstep _
    apply hs.step hundisturbed hstep
  refine ⟨h.counted, h.stored, ?_, ?_⟩
  · intro owner deadline hgathering
    apply h.grounded _ hgathering
  · intro hnever owner deadline hgathering
    obtain ⟨grant, hgrant, -, hle⟩ := h.grounded _ hgathering
    have hone : s.shared.granted = [grant] := by
      have hcounted := h.counted
      rw [hnever] at hcounted
      obtain ⟨only, honly⟩ := List.length_eq_one_iff.mp
        (le_antisymm hcounted (List.length_pos_of_mem hgrant))
      rw [honly] at hgrant ⊢
      rw [List.mem_singleton.mp hgrant]
    use grant.deadline
    rw [h.stored, hone]
    use rfl

/-- A re-drive is granted a second deadline. -/
example :
  (run (step "s" 20) initial [.spawn 50 false, .move 0 .acquire, .move 0 .gather, .move 0 .read,
      .move 0 .write, .elapse 10, .move 0 .gather, .move 0 .read, .move 0 .write]).map
      (fun s => (s.shared.granted.map Grant.deadline, s.shared.freshGathers))
    = some ([50, 60], 1)
  := rfl

/-- A session whose first run gathers for a while and crashes, and is resumed when its lease has
expired, by a flow that was redeployed with another deadline. -/
def crashedAndResumed : List Action :=
  [.spawn 50 false, .move 0 .acquire, .move 0 .gather, .elapse 1, .move 0 .read, .move 0 .write,
    .elapse 10, .move 0 .crash, .elapse 20, .spawn 500 false, .move 1 .acquire, .move 1 .store,
    .move 1 .gather, .elapse 1, .move 1 .read]

/-- The resumed run gathers to the deadline of the first, give or take the call that reads it. -/
theorem session_budget_granted_once_resumed :
  ∃ s, run (step "s" 20) initial crashedAndResumed = some s
    ∧ s.points = [.ended, .gathering ⟨2, 500, false⟩ 50]
    ∧ ∃ stored, s.shared.store.deadline = some stored ∧ 50 ≤ stored
  := by
  have hruns : (run (step "s" 20) initial crashedAndResumed).map
      (fun s => (s.points, s.shared.freshGathers))
        = some ([.ended, .gathering ⟨2, 500, false⟩ 50], 0) := by
    rfl
  obtain ⟨s, hrun, hfacts⟩ := Option.map_eq_some_iff.mp hruns
  rw [Prod.mk.injEq] at hfacts
  obtain ⟨hpoints, hnever⟩ := hfacts
  have hgranted := session_budget_granted_once (by decide) hrun
  use s, hrun, hpoints
  apply hgranted.2.2.2 hnever ⟨2, 500, false⟩ 50
  rw [hpoints]
  apply List.mem_cons_of_mem _ (List.mem_singleton_self _)

end SessionBudget

end Orcastork
