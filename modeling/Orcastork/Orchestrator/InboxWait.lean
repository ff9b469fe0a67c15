import Orcastork.Adapters.Memory.LockSafety

/-!
# Waiting on the inbox

Where the completion condition is not met and nothing is due, the loop waits for an entry, until the
deadline of the session or until it parks. A timer bounds each sleep by the next renewal of the
lease, the deadline and the parking, and after each sleep the lease is renewed if that is due. So the
lease is kept through the wait, however long it is, whatever the other callers of the lock do, if
they are no further apart than a time to live beyond the interval (`inbox_wait_keeps_lease`): each
turn of the loop may come late, but not by more than a slack that its time to live has room for. The
wait ends for the reason it gives and is not much later than it should be
(`inbox_wait_ends_in_time`).
-/

namespace Orcastork

namespace InboxWait

open TransitionSystem

/-- Why a wait has ended. -/
inductive WaitOutcome where
  | wakeup
  | deadline
  | parked
  /-- The adapter raised, and the wait with it. -/
  | failed
  /-- `StaleEpochError` of a renewal. -/
  | fenced
  deriving DecidableEq, Repr

/-- `wait_for_entry`, as a task: a time is when it returned or raised. -/
inductive Waiter where
  | pending
  | done (settledAt : ℕ)
  | raised (settledAt : ℕ)
  deriving DecidableEq, Repr

/-- When a waiter has settled. -/
def Waiter.settledAt? : Waiter → Option ℕ
  | .pending => none
  | .done settledAt | .raised settledAt => some settledAt

/-- Where `_wait_for_inbox` stands, and since when. -/
inductive WaitPoint where
  /-- Before the condition of the loop. -/
  | looping (since : ℕ)
  /-- Before the timer of a sleep is made. -/
  | arming (since bound : ℕ)
  /-- Asleep until the waiter is done or the timer fires. -/
  | asleep (since wakeAt : ℕ)
  /-- Before `_renew_lease_if_due`. -/
  | woken (since : ℕ)
  /-- Before `renew`, with the reading of the clock. -/
  | renewing (since readAt : ℕ)
  | ended (outcome : WaitOutcome)
  deriving DecidableEq, Repr

/-- What a wait is called with. -/
structure WaitCall where
  sessionId : SessionId
  epoch : Epoch
  /-- The time to live of the leases of the lock. -/
  ttl : ℕ+
  /-- `lease_renew_interval`. -/
  interval : ℕ
  deadline : ℕ
  parkAt : Option ℕ

/-- A wait, with the lock of its session and the time. -/
structure WaitState where
  lock : LockState
  now : ℕ
  lastRenew : ℕ
  waiter : Waiter
  point : WaitPoint

/-- What happens next. -/
inductive WaitAction where
  /-- The wait goes on. -/
  | proceed
  /-- Another caller calls the lock. -/
  | other (call : LockCall)
  | elapse (ticks : ℕ)
  /-- The waiter returns, or raises. -/
  | settle (raises : Bool)

/-- How long the next sleep is. -/
def sleepBound (call : WaitCall) (now lastRenew : ℕ) : ℕ :=
  let nextRenewIn := call.interval - (now - lastRenew)
  let bound := min nextRenewIn (call.deadline - now)
  match call.parkAt with
  | none => bound
  | some parkAt => min bound (parkAt - now)

/-- The wait goes on, if it can. -/
def proceed (call : WaitCall) (state : WaitState) : Option WaitState :=
  let now := state.now
  match state.point with
  | .looping _ =>
    match state.waiter with
    | .done _ => some { state with point := .ended .wakeup }
    | .raised _ => some { state with point := .ended .failed }
    | .pending =>
      if call.deadline ≤ now then some { state with point := .ended .deadline }
      else if call.parkAt.any (fun parkAt => parkAt ≤ now) then
        some { state with point := .ended .parked }
      else some { state with point := .arming now (sleepBound call now state.lastRenew) }
  | .arming _ bound => some { state with point := .asleep now (now + bound) }
  | .asleep _ wakeAt =>
    if state.waiter ≠ .pending ∨ wakeAt ≤ now then some { state with point := .woken now } else none
  | .woken _ =>
    if now - state.lastRenew < call.interval then some { state with point := .looping now }
    else some { state with point := .renewing now now }
  | .renewing _ readAt =>
    match state.lock.renew call.sessionId call.epoch now call.ttl with
    | .error _ => some { state with point := .ended .fenced }
    | .ok lock => some { state with lock := lock, lastRenew := readAt, point := .looping now }
  | .ended _ => none

/-- A sleep does not outlast the interval. -/
theorem sleepBound_le_interval (call : WaitCall) (now lastRenew : ℕ) :
  sleepBound call now lastRenew ≤ call.interval - (now - lastRenew)
  := by
  rw [sleepBound]
  split
  · apply min_le_left
  · apply le_trans (min_le_left _ _) (min_le_left _ _)

/-- An epoch that a call is for. -/
def callEpoch? : LockCall → Option Epoch
  | .renew epoch | .release epoch | .markComplete epoch => some epoch
  | .acquire | .currentEpoch | .isHeld | .isComplete | .clearComplete => none

/-- The wait after an action, if it can be taken: nobody else has the epoch of the wait, and a
wait that ends cancels its waiter. -/
def step (call : WaitCall) (state : WaitState) : WaitAction → Option WaitState
  | .proceed => proceed call state
  | .other other =>
    if callEpoch? other = some call.epoch then none
    else some { state with lock := (state.lock.perform call.ttl state.now call.sessionId other).2 }
  | .elapse ticks => some { state with now := state.now + ticks }
  | .settle raises =>
    match state.waiter, state.point with
    | .pending, .ended _ => none
    | .pending, _ =>
      some { state with waiter := if raises then .raised state.now else .done state.now }
    | _, _ => none

/-- A wait that begins. -/
def begun (lock : LockState) (now lastRenew : ℕ) : WaitState :=
  ⟨lock, now, lastRenew, .pending, .looping now⟩

/-- The wait goes on within a slack of when it can: of when its timer fires, or its waiter has
settled, where it sleeps. -/
def Prompt (slack : ℕ) (state : WaitState) : Prop :=
  match state.point with
  | .looping since | .arming since _ | .woken since | .renewing since _ => state.now ≤ since + slack
  | .asleep since wakeAt => state.now ≤ wakeAt + slack
    ∧ ∀ settledAt ∈ state.waiter.settledAt?, state.now ≤ max since settledAt + slack
  | .ended _ => True

instance decidablePrompt (slack : ℕ) : ∀ state, Decidable (Prompt slack state)
  | ⟨_, now, _, _, .looping since⟩ | ⟨_, now, _, _, .arming since _⟩
  | ⟨_, now, _, _, .woken since⟩ | ⟨_, now, _, _, .renewing since _⟩ =>
    inferInstanceAs (Decidable (now ≤ since + slack))
  | ⟨_, now, _, waiter, .asleep since wakeAt⟩ =>
    inferInstanceAs (Decidable (now ≤ wakeAt + slack
      ∧ ∀ settledAt ∈ waiter.settledAt?, now ≤ max since settledAt + slack))
  | ⟨_, _, _, _, .ended _⟩ => .isTrue trivial

/-! ### The lease -/

section

variable {call : WaitCall} {slack : ℕ} {state state' : WaitState}

/-- Where a wait stands, the last renewal is not long ago: each point is reached within one slack
more. -/
def Within (call : WaitCall) (slack : ℕ) (state : WaitState) : Prop :=
  match state.point with
  | .looping since => since ≤ state.lastRenew + call.interval + slack
  | .arming since bound => since + bound ≤ state.lastRenew + call.interval + 2 * slack
  | .asleep _ wakeAt => wakeAt ≤ state.lastRenew + call.interval + 3 * slack
  | .woken since => since ≤ state.lastRenew + call.interval + 4 * slack
  | .renewing since readAt =>
    readAt = since ∧ since ≤ state.now ∧ since ≤ state.lastRenew + call.interval + 5 * slack
  | .ended _ => False

/-- The wait is not fenced, and the lease is its own for a time to live after the last renewal. -/
structure Keeps (call : WaitCall) (slack : ℕ) (state : WaitState) : Prop where
  renewed : state.lastRenew ≤ state.now
  going : (∃ outcome, state.point = .ended outcome ∧ outcome ≠ .fenced) ∨ Within call slack state
  held : state.now < state.lastRenew + call.ttl → ∃ lease, state.lock.lease = some lease
    ∧ lease.epoch = call.epoch ∧ state.lastRenew + call.ttl ≤ lease.expiresAt

/-- Where the wait is prompt, its next step is not later than six times the slack. -/
theorem Within.now_le (h : Within call slack state) (hprompt : Prompt slack state) :
  state.now ≤ state.lastRenew + call.interval + 6 * slack
  := by
  rw [Within] at h
  rw [Prompt] at hprompt
  cases hpoint : state.point with
  | looping since | arming since bound | asleep since wakeAt | woken since | renewing since readAt =>
      rw [hpoint] at h hprompt
      dsimp only at h hprompt
      omega
  | ended outcome =>
      rw [hpoint] at h
      cases h

/-- A lease that is live stays as it is, whatever a caller without its epoch does. -/
theorem lease_perform {ttl : ℕ+} {lock : LockState} {now : ℕ} {sessionId : SessionId}
    {other : LockCall} {lease : Lease} (hlease : lock.lease = some lease)
    (hlive : now < lease.expiresAt) (hother : callEpoch? other ≠ some lease.epoch) :
  (lock.perform ttl now sessionId other).2.lease = some lease
  := by
  have hperformed := LockState.perform_cases ttl lock now sessionId other
  generalize lock.perform ttl now sessionId other = performed at hperformed ⊢
  cases hperformed with
  | granted hfree =>
      rw [LockState.isLive, hlease] at hfree
      cases (decide_eq_true hlive).symm.trans hfree
  | renewed hholds =>
      obtain ⟨held, hheld, hepoch, -⟩ := hholds
      obtain rfl := Option.some.inj (hheld.symm.trans hlease)
      cases hother (congrArg some hepoch.symm)
  | released hheld hepoch =>
      obtain rfl := Option.some.inj (hheld.symm.trans hlease)
      cases hother (congrArg some hepoch.symm)
  | completed hle => apply hlease
  | cleared => apply hlease
  | same hacquire hcomplete => apply hlease

/-- What the wait does next, from where it stands. -/
inductive Proceeded (call : WaitCall) (state state' : WaitState) : Prop where
  | woke {since settledAt : ℕ} (hpoint : state.point = .looping since)
      (hdone : state.waiter = .done settledAt)
      (hstate : state' = { state with point := .ended .wakeup })
  | failed {since settledAt : ℕ} (hpoint : state.point = .looping since)
      (hraised : state.waiter = .raised settledAt)
      (hstate : state' = { state with point := .ended .failed })
  | overdue {since : ℕ} (hpoint : state.point = .looping since) (hpending : state.waiter = .pending)
      (hdeadline : call.deadline ≤ state.now)
      (hstate : state' = { state with point := .ended .deadline })
  | parks {since parkAt : ℕ} (hpoint : state.point = .looping since)
      (hpending : state.waiter = .pending) (hdeadline : state.now < call.deadline)
      (hparkAt : call.parkAt = some parkAt) (hpark : parkAt ≤ state.now)
      (hstate : state' = { state with point := .ended .parked })
  | arms {since : ℕ} (hpoint : state.point = .looping since) (hpending : state.waiter = .pending)
      (hdeadline : state.now < call.deadline)
      (hpark : ∀ parkAt, call.parkAt = some parkAt → state.now < parkAt)
      (hstate : state' = { state with
        point := .arming state.now (sleepBound call state.now state.lastRenew) })
  | sleeps {since bound : ℕ} (hpoint : state.point = .arming since bound)
      (hstate : state' = { state with point := .asleep state.now (state.now + bound) })
  | wakes {since wakeAt : ℕ} (hpoint : state.point = .asleep since wakeAt)
      (hstate : state' = { state with point := .woken state.now })
  | loops {since : ℕ} (hpoint : state.point = .woken since)
      (hearly : state.now - state.lastRenew < call.interval)
      (hstate : state' = { state with point := .looping state.now })
  | reads {since : ℕ} (hpoint : state.point = .woken since)
      (hstate : state' = { state with point := .renewing state.now state.now })
  | renewed {since readAt : ℕ} {lock : LockState} (hpoint : state.point = .renewing since readAt)
      (hrenew : state.lock.renew call.sessionId call.epoch state.now call.ttl = .ok lock)
      (hstate : state' = { state with
        lock := lock
        lastRenew := readAt
        point := .looping state.now })
  | fenced {since readAt : ℕ} {error : OrchestrationError}
      (hpoint : state.point = .renewing since readAt)
      (hrenew : state.lock.renew call.sessionId call.epoch state.now call.ttl = .error error)
      (hstate : state' = { state with point := .ended .fenced })

theorem proceeded (hstep : proceed call state = some state') :
  Proceeded call state state'
  := by
  obtain ⟨lock, now, lastRenew, waiter, point⟩ := state
  rw [proceed] at hstep
  cases point with
  | looping since =>
      cases waiter with
      | done settledAt => apply Proceeded.woke rfl rfl (Option.some.inj hstep).symm
      | raised settledAt => apply Proceeded.failed rfl rfl (Option.some.inj hstep).symm
      | pending =>
          dsimp only at hstep
          split at hstep
          · rename_i hdeadline
            apply Proceeded.overdue rfl rfl hdeadline (Option.some.inj hstep).symm
          · rename_i hdeadline
            rw [Nat.not_le] at hdeadline
            split at hstep
            · rename_i hpark
              obtain ⟨parkAt, hparkAt, hle⟩ := (Option.any_eq_true _ _).mp hpark
              apply Proceeded.parks rfl rfl hdeadline hparkAt (of_decide_eq_true hle)
                (Option.some.inj hstep).symm
            · rename_i hpark
              apply Proceeded.arms rfl rfl hdeadline _ (Option.some.inj hstep).symm
              intro parkAt hparkAt
              rw [hparkAt, Option.any_some, decide_eq_true_eq, Nat.not_le] at hpark
              apply hpark
  | arming since bound =>
      apply Proceeded.sleeps rfl (Option.some.inj hstep).symm
  | asleep since wakeAt =>
      dsimp only at hstep
      rw [Option.ite_none_right_eq_some, Option.some.injEq] at hstep
      apply Proceeded.wakes rfl hstep.2.symm
  | woken since =>
      dsimp only at hstep
      split at hstep
      · rename_i hearly
        apply Proceeded.loops rfl hearly (Option.some.inj hstep).symm
      · apply Proceeded.reads rfl (Option.some.inj hstep).symm
  | renewing since readAt =>
      dsimp only at hstep
      split at hstep
      · rename_i hrenew
        apply Proceeded.fenced rfl hrenew (Option.some.inj hstep).symm
      · rename_i hrenew
        apply Proceeded.renewed rfl hrenew (Option.some.inj hstep).symm
  | ended outcome => cases hstep

/-- A waiter settles now, while the wait goes on. -/
theorem settled {raises : Bool} (hstep : step call state (.settle raises) = some state') :
  state.waiter = .pending ∧ (∀ outcome, state.point ≠ .ended outcome)
    ∧ ∃ waiter : Waiter, waiter.settledAt? = some state.now
      ∧ state' = { state with waiter := waiter }
  := by
  obtain ⟨lock, now, lastRenew, waiter, point⟩ := state
  rw [step] at hstep
  cases waiter with
  | done settledAt => cases hstep
  | raised settledAt => cases hstep
  | pending =>
      have hpoint : ∀ outcome, point ≠ .ended outcome := by
        intro outcome hended
        rw [hended] at hstep
        cases hstep
      use rfl, hpoint
      dsimp only at hstep
      split at hstep
      · cases hstep
      · use (if raises then .raised now else .done now)
        constructor
        · cases raises with
          | true => rfl
          | false => rfl
        · apply (Option.some.inj hstep).symm
      · cases hstep

/-- A step of the wait keeps its lease. -/
theorem Keeps.proceed (hroom : call.interval + 6 * slack < call.ttl) (h : Keeps call slack state)
    (hprompt : Prompt slack state) (hstep : InboxWait.proceed call state = some state') :
  Keeps call slack state'
  := by
  rcases h.going with ⟨outcome, hended, -⟩ | hwithin
  · rw [InboxWait.proceed, hended] at hstep
    cases hstep
  · have hnow := hwithin.now_le hprompt
    have hrenewed := h.renewed
    have hends : ∀ outcome : WaitOutcome, outcome ≠ .fenced →
        Keeps call slack { state with point := .ended outcome } := by
      intro outcome hne
      refine ⟨hrenewed, ?_, h.held⟩
      left
      use outcome, rfl
    have hgoes : ∀ point, Within call slack { state with point := point } →
        Keeps call slack { state with point := point } := by
      intro point hwithin'
      exact ⟨hrenewed, .inr hwithin', h.held⟩
    rw [Within] at hwithin
    rw [Prompt] at hprompt
    cases proceeded hstep with
    | woke hpoint hdone hstate =>
        rw [hstate]
        apply hends .wakeup
        intro h
        cases h
    | failed hpoint hraised hstate =>
        rw [hstate]
        apply hends .failed
        intro h
        cases h
    | overdue hpoint hpending hdeadline hstate =>
        rw [hstate]
        apply hends .deadline
        intro h
        cases h
    | parks hpoint hpending hdeadline hparkAt hpark hstate =>
        rw [hstate]
        apply hends .parked
        intro h
        cases h
    | arms hpoint hpending hdeadline hpark hstate =>
        rw [hpoint] at hwithin hprompt
        have hbound := sleepBound_le_interval call state.now state.lastRenew
        rw [hstate]
        apply hgoes
        rw [Within]
        dsimp only at hwithin hprompt ⊢
        omega
    | sleeps hpoint hstate =>
        rw [hpoint] at hwithin hprompt
        rw [hstate]
        apply hgoes
        rw [Within]
        dsimp only at hwithin hprompt ⊢
        omega
    | wakes hpoint hstate =>
        rw [hpoint] at hwithin hprompt
        rw [hstate]
        apply hgoes
        rw [Within]
        dsimp only at hwithin hprompt ⊢
        omega
    | loops hpoint hearly hstate =>
        rw [hstate]
        apply hgoes
        rw [Within]
        dsimp only
        omega
    | reads hpoint hstate =>
        rw [hpoint] at hwithin hprompt
        rw [hstate]
        apply hgoes
        rw [Within]
        dsimp only at hwithin hprompt ⊢
        omega
    | @renewed since readAt lock hpoint hrenew hstate =>
        rw [hpoint] at hwithin hprompt
        obtain ⟨rfl, hread, -⟩ := hwithin
        obtain ⟨-, -, -, -, rfl⟩ := LockState.renew_eq_ok.mp hrenew
        rw [hstate]
        refine ⟨hread, ?_, ?_⟩
        · right
          rw [Within]
          dsimp only at hprompt ⊢
          omega
        · intro _
          use ⟨call.epoch, state.now + call.ttl⟩, rfl, rfl
          dsimp only
          omega
    | @fenced since readAt error hpoint hrenew hstate =>
        -- the lease is live when it is renewed
        have hsoon : state.now < state.lastRenew + call.ttl := by omega
        obtain ⟨lease, hlease, hepoch, hexpires⟩ := h.held hsoon
        have hok : state.lock.renew call.sessionId call.epoch state.now call.ttl = .ok _ :=
          LockState.renew_eq_ok.mpr ⟨lease, hlease, hepoch, lt_of_lt_of_le hsoon hexpires, rfl⟩
        cases hrenew.symm.trans hok

/-- So does everything else, while the wait is prompt. -/
theorem Keeps.step {action : WaitAction} (hroom : call.interval + 6 * slack < call.ttl)
    (h : Keeps call slack state) (hprompt : Prompt slack state)
    (hstep : InboxWait.step call state action = some state') :
  Keeps call slack state'
  := by
  cases action with
  | proceed => apply h.proceed hroom hprompt hstep
  | other other =>
      rw [InboxWait.step, Option.ite_none_left_eq_some, Option.some.injEq] at hstep
      obtain ⟨hother, rfl⟩ := hstep
      refine ⟨h.renewed, h.going, ?_⟩
      intro hsoon
      obtain ⟨lease, hlease, hepoch, hexpires⟩ := h.held hsoon
      rw [← hepoch] at hother
      use lease, lease_perform hlease (lt_of_lt_of_le hsoon hexpires) hother, hepoch
  | elapse ticks =>
      obtain rfl := Option.some.inj hstep
      refine ⟨?_, ?_, ?_⟩
      · apply le_trans h.renewed (Nat.le_add_right _ _)
      · rcases h.going with hended | hwithin
        · left
          apply hended
        · right
          rw [Within] at hwithin ⊢
          dsimp only
          split at hwithin
          all_goals omega
      · intro hsoon
        apply h.held
        apply lt_of_le_of_lt (Nat.le_add_right _ _) hsoon
  | settle raises =>
      obtain ⟨-, -, waiter, -, rfl⟩ := settled hstep
      exact ⟨h.renewed, h.going, h.held⟩

/-- A wait that begins with a lease, soon after its renewal, keeps it. -/
theorem Keeps.begun {lock : LockState} {now lastRenew : ℕ} {lease : Lease}
    (hlease : lock.lease = some lease) (hepoch : lease.epoch = call.epoch)
    (hexpires : lastRenew + call.ttl ≤ lease.expiresAt) (hrenewed : lastRenew ≤ now)
    (hsoon : now ≤ lastRenew + call.interval + slack) :
  Keeps call slack (begun lock now lastRenew)
  := by
  refine ⟨hrenewed, .inr hsoon, ?_⟩
  intro _
  use lease, hlease, hepoch, hexpires

/-- A wait that is prompt is not fenced, however long it is and whatever other callers do: it has
the lease until it has ended, and for a time to live after the last renewal it returns; nobody is
granted the lock before that. -/
theorem inbox_wait_keeps_lease {lock : LockState} {now lastRenew : ℕ} {lease : Lease}
    {actions : List WaitAction} (hroom : call.interval + 6 * slack < call.ttl)
    (hlease : lock.lease = some lease) (hepoch : lease.epoch = call.epoch)
    (hexpires : lastRenew + call.ttl ≤ lease.expiresAt) (hrenewed : lastRenew ≤ now)
    (hsoon : now ≤ lastRenew + call.interval + slack)
    (hprompt : Throughout (step call) (Prompt slack) (InboxWait.begun lock now lastRenew) actions)
    (hrun : run (step call) (InboxWait.begun lock now lastRenew) actions = some state) :
  state.point ≠ .ended .fenced
    ∧ ((∀ outcome, state.point ≠ .ended outcome) → state.now < state.lastRenew + call.ttl)
    ∧ (state.now < state.lastRenew + call.ttl → state.lock.HoldsLive state.now call.epoch
      ∧ (state.lock.perform call.ttl state.now call.sessionId .acquire).1
        = .error (.lockHeld s!"session {call.sessionId} is already locked"))
  := by
  have hkeeps : Keeps call slack state := by
    apply run_invariant_of_throughout _ (Keeps.begun hlease hepoch hexpires hrenewed hsoon)
      hprompt hrun
    intro s action s' hs hprompt hstep _
    apply hs.step hroom hprompt hstep
  refine ⟨?_, ?_, ?_⟩
  · intro hfenced
    rcases hkeeps.going with ⟨outcome, hended, hne⟩ | hwithin
    · rw [hfenced, WaitPoint.ended.injEq] at hended
      cases hne hended.symm
    · rw [Within, hfenced] at hwithin
      apply hwithin
  · intro hgoing
    rcases hkeeps.going with ⟨outcome, hended, -⟩ | hwithin
    · cases hgoing outcome hended
    · have hnow := hwithin.now_le (hprompt actions [] (List.append_nil _).symm state hrun)
      omega
  · intro hsoon
    obtain ⟨lease, hlease, hepoch, hexpires⟩ := hkeeps.held hsoon
    have hlive := lt_of_lt_of_le hsoon hexpires
    constructor
    · use lease
    · rw [LockState.perform, LockState.acquire,
        if_pos (LockState.isLive_iff.mpr ⟨lease, hlease, hlive⟩)]

/-! ### The end -/

/-- When a wait is over without an entry: at the deadline, or when it parks before that. -/
def WaitCall.dueAt (call : WaitCall) : ℕ :=
  match call.parkAt with
  | none => call.deadline
  | some parkAt => min call.deadline parkAt

/-- A sleep does not outlast the wait. -/
theorem sleepBound_le_due (call : WaitCall) (now lastRenew : ℕ) :
  sleepBound call now lastRenew ≤ call.dueAt - now
  := by
  rw [sleepBound, WaitCall.dueAt]
  split
  · apply min_le_right
  · rename_i parkAt hparkAt
    rw [← Nat.sub_min_sub_right]
    apply le_min
    · apply le_trans (min_le_left _ _) (min_le_right _ _)
    · apply min_le_right

/-- A waiter that has settled did so not more than some time before. -/
def Noticed (waiter : Waiter) (since delay : ℕ) : Prop :=
  ∀ settledAt, waiter.settledAt? = some settledAt → since ≤ settledAt + delay

/-- The reason an outcome gives. -/
def EndedFor (call : WaitCall) (state : WaitState) : WaitOutcome → Prop
  | .wakeup => ∃ settledAt, state.waiter = .done settledAt
  | .failed => ∃ settledAt, state.waiter = .raised settledAt
  | .deadline => state.waiter = .pending ∧ call.deadline ≤ state.now
  | .parked => state.waiter = .pending
    ∧ ∃ parkAt, call.parkAt = some parkAt ∧ parkAt ≤ state.now ∧ parkAt < call.deadline
  | .fenced => True

/-- A wait that is entered at a time is on time, where it stands: each point is reached within one
slack more, after it is due to end and after its waiter has settled. -/
def OnTime (call : WaitCall) (slack entered : ℕ) (state : WaitState) : Prop :=
  match state.point with
  | .looping since => since ≤ state.now ∧ since ≤ max entered call.dueAt + 4 * slack
    ∧ Noticed state.waiter since (4 * slack)
  | .arming since bound => since ≤ state.now ∧ since + bound ≤ call.dueAt
    ∧ Noticed state.waiter since 0
  | .asleep since wakeAt => since ≤ state.now ∧ wakeAt ≤ call.dueAt + slack
    ∧ Noticed state.waiter since slack
  | .woken since => since ≤ state.now ∧ since ≤ call.dueAt + 2 * slack
    ∧ Noticed state.waiter since (2 * slack)
  | .renewing since _ => since ≤ state.now ∧ since ≤ call.dueAt + 3 * slack
    ∧ Noticed state.waiter since (3 * slack)
  | .ended outcome => EndedFor call state outcome

theorem noticed_of_pending {waiter : Waiter} {since delay : ℕ} (h : waiter = .pending) :
  Noticed waiter since delay
  := by
  intro settledAt hsettled
  rw [h] at hsettled
  cases hsettled

/-- What is noticed at a point is noticed at the next, which is reached within a slack. -/
theorem Noticed.later {waiter : Waiter} {since since' delay : ℕ} (h : Noticed waiter since delay)
    (hprompt : since' ≤ since + slack) {delay' : ℕ} (hdelay : delay + slack ≤ delay') :
  Noticed waiter since' delay'
  := by
  intro settledAt hsettled
  have hnoticed := h settledAt hsettled
  omega

/-- A step of the wait keeps it on time. -/
theorem OnTime.proceed {entered : ℕ} (h : OnTime call slack entered state)
    (hprompt : Prompt slack state) (hstep : InboxWait.proceed call state = some state') :
  OnTime call slack entered state'
  := by
  rw [OnTime] at h
  rw [Prompt] at hprompt
  cases proceeded hstep with
  | @woke since settledAt hpoint hdone hstate =>
      rw [hstate]
      use settledAt, hdone
  | @failed since settledAt hpoint hraised hstate =>
      rw [hstate]
      use settledAt, hraised
  | overdue hpoint hpending hdeadline hstate =>
      rw [hstate]
      use hpending, hdeadline
  | @parks since parkAt hpoint hpending hdeadline hparkAt hpark hstate =>
      rw [hstate]
      use hpending, parkAt, hparkAt, hpark
      apply lt_of_le_of_lt hpark hdeadline
  | arms hpoint hpending hdeadline hpark hstate =>
      rw [hstate]
      have hbound := sleepBound_le_due call state.now state.lastRenew
      have hdue : state.now < call.dueAt := by
        rw [WaitCall.dueAt]
        split
        · apply hdeadline
        · rename_i parkAt hparkAt
          apply lt_min hdeadline (hpark parkAt hparkAt)
      refine ⟨le_refl _, ?_, noticed_of_pending hpending⟩
      omega
  | @sleeps since bound hpoint hstate =>
      rw [hpoint] at h hprompt
      dsimp only at h hprompt
      obtain ⟨-, hdue, hnoticed⟩ := h
      rw [hstate]
      refine ⟨le_refl _, ?_, hnoticed.later hprompt (Nat.zero_add _).le⟩
      omega
  | @wakes since wakeAt hpoint hstate =>
      rw [hpoint] at h hprompt
      dsimp only at h hprompt
      obtain ⟨hsince, hdue, hnoticed⟩ := h
      obtain ⟨htimer, hwaiter⟩ := hprompt
      rw [hstate]
      refine ⟨le_refl _, ?_, ?_⟩
      · omega
      · intro settledAt hsettled
        have hwoken := hwaiter settledAt hsettled
        have hslept := hnoticed settledAt hsettled
        omega
  | loops hpoint hearly hstate =>
      rw [hpoint] at h hprompt
      dsimp only at h hprompt
      obtain ⟨-, hdue, hnoticed⟩ := h
      rw [hstate]
      refine ⟨le_refl _, ?_, hnoticed.later hprompt (by omega)⟩
      omega
  | reads hpoint hstate =>
      rw [hpoint] at h hprompt
      dsimp only at h hprompt
      obtain ⟨-, hdue, hnoticed⟩ := h
      rw [hstate]
      refine ⟨le_refl _, ?_, hnoticed.later hprompt (by omega)⟩
      omega
  | renewed hpoint hrenew hstate =>
      rw [hpoint] at h hprompt
      dsimp only at h hprompt
      obtain ⟨-, hdue, hnoticed⟩ := h
      rw [hstate]
      refine ⟨le_refl _, ?_, hnoticed.later hprompt (by omega)⟩
      omega
  | fenced hpoint hrenew hstate =>
      rw [hstate]
      trivial

/-- So does everything else. -/
theorem OnTime.step {entered : ℕ} {action : WaitAction} (h : OnTime call slack entered state)
    (hprompt : Prompt slack state) (hstep : InboxWait.step call state action = some state') :
  OnTime call slack entered state'
  := by
  cases action with
  | proceed => apply h.proceed hprompt hstep
  | other other =>
      rw [InboxWait.step, Option.ite_none_left_eq_some, Option.some.injEq] at hstep
      obtain ⟨-, rfl⟩ := hstep
      apply h
  | elapse ticks =>
      obtain rfl := Option.some.inj hstep
      rw [OnTime] at h ⊢
      dsimp only
      split at h
      · exact ⟨by omega, h.2⟩
      · exact ⟨by omega, h.2⟩
      · exact ⟨by omega, h.2⟩
      · exact ⟨by omega, h.2⟩
      · exact ⟨by omega, h.2⟩
      · rename_i outcome _
        cases outcome with
        | wakeup | failed | fenced => apply h
        | deadline => exact ⟨h.1, le_trans h.2 (Nat.le_add_right _ _)⟩
        | parked =>
            obtain ⟨hpending, parkAt, hparkAt, hpark, hbefore⟩ := h
            exact ⟨hpending, parkAt, hparkAt, le_trans hpark (Nat.le_add_right _ _), hbefore⟩
  | settle raises =>
      obtain ⟨-, hgoing, waiter, hsettled, rfl⟩ := settled hstep
      have hnow : ∀ since delay, since ≤ state.now → Noticed waiter since delay := by
        intro since delay hsince settledAt hsettledAt
        rw [hsettled, Option.some.injEq] at hsettledAt
        rw [← hsettledAt]
        apply le_trans hsince (Nat.le_add_right _ _)
      rw [OnTime] at h ⊢
      dsimp only
      split at h
      · exact ⟨h.1, h.2.1, hnow _ _ h.1⟩
      · exact ⟨h.1, h.2.1, hnow _ _ h.1⟩
      · exact ⟨h.1, h.2.1, hnow _ _ h.1⟩
      · exact ⟨h.1, h.2.1, hnow _ _ h.1⟩
      · exact ⟨h.1, h.2.1, hnow _ _ h.1⟩
      · rename_i outcome hended
        cases hgoing outcome hended

/-- A wait that is on time and prompt is soon over. -/
theorem OnTime.now_le {entered : ℕ} (h : OnTime call slack entered state)
    (hprompt : Prompt slack state) (hgoing : ∀ outcome, state.point ≠ .ended outcome) :
  state.now ≤ max entered call.dueAt + 5 * slack ∧ Noticed state.waiter state.now (5 * slack)
  := by
  rw [OnTime] at h
  rw [Prompt] at hprompt
  cases hpoint : state.point with
  | looping since | arming since bound | woken since | renewing since readAt =>
      rw [hpoint] at h hprompt
      dsimp only at h hprompt
      obtain ⟨-, hdue, hnoticed⟩ := h
      use (by omega)
      apply hnoticed.later hprompt
      omega
  | asleep since wakeAt =>
      rw [hpoint] at h hprompt
      dsimp only at h hprompt
      obtain ⟨-, hdue, hnoticed⟩ := h
      use (by omega)
      intro settledAt hsettled
      have hwoken := hprompt.2 settledAt hsettled
      have hslept := hnoticed settledAt hsettled
      omega
  | ended outcome => cases hgoing outcome hpoint

/-- A wait that is prompt is over soon after it is due to end, and soon after its waiter has
settled, and the outcome it ends with is the case: it parks, or meets the deadline, only when it is
time to and its waiter has not settled. -/
theorem inbox_wait_ends_in_time {lock : LockState} {now lastRenew : ℕ} {actions : List WaitAction}
    (hprompt : Throughout (step call) (Prompt slack) (InboxWait.begun lock now lastRenew) actions)
    (hrun : run (step call) (InboxWait.begun lock now lastRenew) actions = some state) :
  ((∀ outcome, state.point ≠ .ended outcome) →
      state.now ≤ max now call.dueAt + 5 * slack
        ∧ ∀ settledAt, state.waiter.settledAt? = some settledAt → state.now ≤ settledAt + 5 * slack)
    ∧ ∀ outcome, state.point = .ended outcome → EndedFor call state outcome
  := by
  have hbegun : OnTime call slack now (InboxWait.begun lock now lastRenew) := by
    refine ⟨le_refl _, ?_, noticed_of_pending rfl⟩
    omega
  have hontime : OnTime call slack now state := by
    apply run_invariant_of_throughout _ hbegun hprompt hrun
    intro s action s' hs hprompt hstep _
    apply hs.step hprompt hstep
  constructor
  · apply hontime.now_le (hprompt actions [] (List.append_nil _).symm state hrun)
  · intro outcome hended
    rw [OnTime, hended] at hontime
    apply hontime

end

/-! ### A wait that is renewed twice and parks -/

/-- A wait whose lease is renewed every twelve ticks, and which parks after thirty. -/
def parkingCall : WaitCall := ⟨"s", 1, 20, 12, 100, some 30⟩

/-- Another pod tries for the session while it waits. -/
def parkingActions : List WaitAction :=
  [.proceed, .proceed, .elapse 12, .other .acquire, .proceed, .proceed, .proceed, .proceed, .proceed,
    .elapse 13, .proceed, .proceed, .other .acquire, .proceed, .proceed, .proceed, .elapse 5,
    .proceed, .proceed, .proceed]

/-- The lock of a session that was granted just now. -/
def grantedLock : LockState := ⟨1, some ⟨1, 20⟩, false⟩

/-- The wait that parks has kept its lease, which is live for a while after it. -/
theorem inbox_wait_keeps_lease_parking :
  ∃ state, run (step parkingCall) (begun grantedLock 0 0) parkingActions = some state
    ∧ state.point = .ended .parked ∧ state.lock.HoldsLive state.now 1
  := by
  have hruns : (run (step parkingCall) (begun grantedLock 0 0) parkingActions).map
      (fun state => (state.point, state.now, state.lastRenew)) = some (.ended .parked, 30, 25) := by
    rfl
  obtain ⟨state, hrun, hfacts⟩ := Option.map_eq_some_iff.mp hruns
  rw [Prod.mk.injEq, Prod.mk.injEq] at hfacts
  obtain ⟨hpoint, hnow, hlast⟩ := hfacts
  have hprompt : Throughout (step parkingCall) (Prompt 1) (begun grantedLock 0 0) parkingActions :=
    by decide
  have hkept := inbox_wait_keeps_lease (by decide) rfl rfl (by decide) (by decide) (by decide)
    hprompt hrun
  use state, hrun, hpoint
  apply (hkept.2.2 _).1
  rw [hnow, hlast]
  decide

/-- It parks with its waiter not settled. -/
theorem inbox_wait_ends_in_time_parking :
  ∃ state, run (step parkingCall) (begun grantedLock 0 0) parkingActions = some state
    ∧ state.point = .ended .parked ∧ EndedFor parkingCall state .parked
  := by
  have hruns : (run (step parkingCall) (begun grantedLock 0 0) parkingActions).map
      WaitState.point = some (.ended .parked) := by
    rfl
  obtain ⟨state, hrun, hpoint⟩ := Option.map_eq_some_iff.mp hruns
  have hprompt : Throughout (step parkingCall) (Prompt 1) (begun grantedLock 0 0) parkingActions :=
    by decide
  have hontime := inbox_wait_ends_in_time hprompt hrun
  use state, hrun, hpoint
  apply hontime.2 .parked hpoint

end InboxWait

end Orcastork
