import Mathlib.Tactic.Linarith
import Orcastork.Library.Dict
import Orcastork.Library.TokenBucket
import Orcastork.Library.TransitionSystem

/-!
# The in-memory rate limiter

`InMemoryRateLimiter` keeps a token bucket for each key. A call of `acquire` refills the bucket of its
key and takes a token; if there is none, it sleeps until there should be one and tries again, as some
other call may have taken it meanwhile. Nothing comes between a refill and what follows it, so the
calls of a limiter are one sequence of turns, with time passing between them.

In every window of time the calls for a key that return are within the burst and the rate over the
window (`returned_le`). Numbers are those of an ordered field.
-/

namespace Orcastork

/-- `InMemoryRateLimiter`, as its constructor lets it be. -/
structure InMemoryRateLimiter (K : Type) [Field K] [LinearOrder K] where
  rate : K
  burst : ℤ
  rate_pos : 0 < rate
  one_le_burst : 1 ≤ burst

/-- `_Bucket`. -/
structure MemoryBucket (K : Type) where
  tokens : K
  refilledAt : K
  deriving DecidableEq

/-- How far a call of `acquire` is. -/
inductive AcquireStatus (K : Type) where
  /-- At the top of its loop. -/
  | trying
  /-- Asleep for a while, or woken early. -/
  | sleeping (seconds : K)
  | returned
  | cancelled
  deriving DecidableEq

structure AcquireCall (K : Type) where
  key : String
  status : AcquireStatus K
  deriving DecidableEq

/-- A limiter with its calls, the time, and when which calls returned. -/
structure LimiterState (K : Type) where
  now : K
  buckets : Dict String (MemoryBucket K)
  calls : List (AcquireCall K)
  returns : List (String × K)

inductive LimiterAction (K : Type) where
  | elapse (span : K)
  | call (key : String)
  /-- A call runs until it returns or sleeps; that it wakes on time is not relied on. -/
  | turn (call : ℕ)
  | cancel (call : ℕ)

namespace InMemoryRateLimiter

variable {K : Type} [Field K] [LinearOrder K] (limiter : InMemoryRateLimiter K)

/-- Nothing was asked of a limiter yet. -/
def initial (now : K) : LimiterState K := ⟨now, .empty, [], []⟩

/-- The bucket of a key as `setdefault` gives it, refilled. -/
def refilled (state : LimiterState K) (key : String) : MemoryBucket K :=
  let bucket := (state.buckets.get? key).getD ⟨limiter.burst, state.now⟩
  ⟨min (limiter.burst : K) (bucket.tokens + (state.now - bucket.refilledAt) * limiter.rate),
    state.now⟩

/-- The body of the loop of `acquire`. -/
def attempt (state : LimiterState K) (i : ℕ) (key : String) : LimiterState K :=
  let bucket := limiter.refilled state key
  if 1 ≤ bucket.tokens then
    { state with
      buckets := state.buckets.set key { bucket with tokens := bucket.tokens - 1 }
      calls := state.calls.set i ⟨key, .returned⟩
      returns := state.returns ++ [(key, state.now)] }
  else
    { state with
      buckets := state.buckets.set key bucket
      calls := state.calls.set i ⟨key, .sleeping ((1 - bucket.tokens) / limiter.rate)⟩ }

/-- One action, if it can be taken. -/
def step (state : LimiterState K) : LimiterAction K → Option (LimiterState K)
  | .elapse span => if 0 ≤ span then some { state with now := state.now + span } else none
  | .call key => some { state with calls := state.calls ++ [⟨key, .trying⟩] }
  | .turn i =>
    match state.calls[i]? with
    | some ⟨key, .trying⟩ | some ⟨key, .sleeping _⟩ => some (limiter.attempt state i key)
    | _ => none
  | .cancel i =>
    match state.calls[i]? with
    | some ⟨key, .trying⟩ | some ⟨key, .sleeping _⟩ =>
      some { state with calls := state.calls.set i ⟨key, .cancelled⟩ }
    | _ => none

/-- The calls for a key that returned within a window of time. -/
def returnedWithin (state : LimiterState K) (key : String) (fromTime toTime : K) : ℕ :=
  state.returns.countP (fun returned =>
    decide (returned.1 = key ∧ fromTime ≤ returned.2 ∧ returned.2 ≤ toTime))

/-! ### Invariants -/

/-- Every bucket was refilled by now and holds no fewer tokens than none and no more than the burst. In
no window is more returned than the burst and the rate allow, and as long as a window is not over, the
tokens at hand are allowed for too. -/
structure Kept (state : LimiterState K) : Prop where
  buckets : ∀ {key bucket}, state.buckets.get? key = some bucket →
    0 ≤ bucket.tokens ∧ bucket.tokens ≤ limiter.burst ∧ bucket.refilledAt ≤ state.now
  returns : ∀ returned ∈ state.returns, returned.2 ≤ state.now
  windows : ∀ (key : String) {fromTime toTime : K}, fromTime ≤ toTime →
    (returnedWithin state key fromTime toTime : K)
      ≤ limiter.burst + limiter.rate * (toTime - fromTime)
  open_windows : ∀ (key : String) {fromTime toTime : K}, fromTime ≤ toTime → state.now ≤ toTime →
    (returnedWithin state key fromTime toTime : K) + (limiter.refilled state key).tokens
      ≤ limiter.burst + limiter.rate * max (state.now - fromTime) 0

variable {limiter} [IsStrictOrderedRing K] {state : LimiterState K}

theorem burst_nonneg :
  (0 : K) ≤ limiter.burst
  := by exact_mod_cast zero_le_one.trans limiter.one_le_burst

omit [IsStrictOrderedRing K] in
theorem refilled_eq (state : LimiterState K) (key : String) :
  (limiter.refilled state key).tokens
    = TokenBucket.refill (limiter.burst : K)
      ((state.buckets.get? key).getD ⟨limiter.burst, state.now⟩).tokens
      ((state.now - ((state.buckets.get? key).getD ⟨limiter.burst, state.now⟩).refilledAt)
        * limiter.rate)
  := rfl

namespace Kept

/-- A refilled bucket holds no fewer tokens than none and no more than the burst. -/
theorem refilled (h : limiter.Kept state) (key : String) :
  0 ≤ (limiter.refilled state key).tokens ∧ (limiter.refilled state key).tokens ≤ limiter.burst
  := by
  refine ⟨?_, min_le_left _ _⟩
  rw [refilled_eq]
  cases hget : state.buckets.get? key with
  | none =>
      rw [Option.getD_none, sub_self, zero_mul]
      exact le_min burst_nonneg (by rw [add_zero]; exact burst_nonneg)
  | some bucket =>
      obtain ⟨hnonneg, -, hrefilled⟩ := h.buckets hget
      apply le_min burst_nonneg
      exact add_nonneg hnonneg (mul_nonneg (sub_nonneg.mpr hrefilled) limiter.rate_pos.le)

/-- A limiter starts so. -/
theorem initial (now : K) :
  limiter.Kept (InMemoryRateLimiter.initial now)
  := by
  have hnone : ∀ (key : String) (fromTime toTime : K),
      returnedWithin (InMemoryRateLimiter.initial now) key fromTime toTime = 0 := fun _ _ _ => rfl
  constructor
  · intro key bucket hget
    cases hget
  · exact nofun
  · intro key fromTime toTime hle
    rw [hnone, Nat.cast_zero]
    exact add_nonneg burst_nonneg (mul_nonneg limiter.rate_pos.le (sub_nonneg.mpr hle))
  · intro key fromTime toTime _ _
    rw [hnone, Nat.cast_zero, zero_add]
    apply (min_le_left _ _).trans
    exact le_add_of_nonneg_right (mul_nonneg limiter.rate_pos.le (le_max_right _ _))

/-- What is less than a window that is not over allows for. -/
theorem window_of_open {fromTime toTime count : K} (hle : fromTime ≤ toTime)
    (hnow : state.now ≤ toTime)
    (hopen : count ≤ limiter.burst + limiter.rate * max (state.now - fromTime) 0) :
  count ≤ limiter.burst + limiter.rate * (toTime - fromTime)
  := by
  have hspan : max (state.now - fromTime) 0 ≤ toTime - fromTime :=
    max_le (sub_le_sub_right hnow _) (sub_nonneg.mpr hle)
  have hmul := mul_le_mul_of_nonneg_left hspan limiter.rate_pos.le
  linarith

omit [IsStrictOrderedRing K] in
/-- Nothing has returned in a window that has not begun. -/
theorem returnedWithin_eq_zero (h : limiter.Kept state) (key : String) {fromTime : K} (toTime : K)
    (hnow : state.now < fromTime) :
  returnedWithin state key fromTime toTime = 0
  := by
  rw [returnedWithin, List.countP_eq_zero]
  intro returned hreturned hwithin
  rw [decide_eq_true_eq] at hwithin
  exact absurd (hwithin.2.1.trans (h.returns returned hreturned)) (not_le.mpr hnow)

/-- Time passes. -/
theorem elapse (h : limiter.Kept state) {span : K} (hspan : 0 ≤ span) :
  limiter.Kept { state with now := state.now + span }
  := by
  have hlater : state.now ≤ state.now + span := le_add_of_nonneg_right hspan
  have hworth : 0 ≤ span * limiter.rate := mul_nonneg hspan limiter.rate_pos.le
  have hcredit : ∀ key, (limiter.refilled { state with now := state.now + span } key).tokens
      ≤ (limiter.refilled state key).tokens + span * limiter.rate := by
    intro key
    rw [refilled_eq, refilled_eq]
    cases hget : state.buckets.get? key with
    | none =>
        simp only [Option.getD_none, sub_self]
        exact le_add_of_nonneg_right hworth
    | some bucket =>
        simp only [Option.getD_some]
        rw [add_sub_right_comm, add_mul]
        exact TokenBucket.refill_add_le hworth
  constructor
  · intro key bucket hget
    obtain ⟨hnonneg, hle, hrefilled⟩ := h.buckets hget
    exact ⟨hnonneg, hle, hrefilled.trans hlater⟩
  · exact fun returned hreturned => (h.returns returned hreturned).trans hlater
  · exact h.windows
  · intro key fromTime toTime hle hnow
    rcases lt_or_ge state.now fromTime with hbefore | hbegun
    · have hnone := h.returnedWithin_eq_zero key toTime hbefore
      have hburst : (limiter.refilled { state with now := state.now + span } key).tokens
          ≤ limiter.burst := min_le_left _ _
      have hmax := mul_nonneg limiter.rate_pos.le (le_max_right (state.now + span - fromTime) 0)
      change ((returnedWithin state key fromTime toTime : ℕ) : K) + _ ≤ _
      rw [hnone, Nat.cast_zero, zero_add]
      linarith
    · have hopen := h.open_windows key hle (hlater.trans hnow)
      have hmore := hcredit key
      rw [max_eq_left (sub_nonneg.mpr hbegun)] at hopen
      rw [max_eq_left (sub_nonneg.mpr (hbegun.trans hlater)), add_sub_right_comm, mul_add,
        mul_comm limiter.rate span]
      change ((returnedWithin state key fromTime toTime : ℕ) : K) + _ ≤ _
      linarith

omit [IsStrictOrderedRing K] in
/-- The buckets of the other keys are as they were. -/
theorem refilled_set_of_ne {key other : String} (hne : key ≠ other) (bucket : MemoryBucket K)
    {calls : List (AcquireCall K)} {returns : List (String × K)} :
  limiter.refilled ⟨state.now, state.buckets.set key bucket, calls, returns⟩ other
    = limiter.refilled state other
  := by
  rw [InMemoryRateLimiter.refilled, Dict.get?_set_of_ne _ hne]
  rfl

omit [IsStrictOrderedRing K] in
/-- A bucket that was refilled by now is as it is. -/
theorem refilled_set_self {key : String} {tokens : K} (hle : tokens ≤ limiter.burst)
    {calls : List (AcquireCall K)} {returns : List (String × K)} :
  (limiter.refilled ⟨state.now, state.buckets.set key ⟨tokens, state.now⟩, calls, returns⟩
      key).tokens
    = tokens
  := by
  rw [InMemoryRateLimiter.refilled, Dict.get?_set_self, Option.getD_some, sub_self, zero_mul,
    add_zero, min_eq_right hle]

omit [IsStrictOrderedRing K] in
/-- The bucket of a key is refilled by now. -/
theorem buckets_set (h : limiter.Kept state) {key : String} {tokens : K} (hnonneg : 0 ≤ tokens)
    (hle : tokens ≤ limiter.burst) {other : String} {bucket : MemoryBucket K}
    (hget : (state.buckets.set key ⟨tokens, state.now⟩).get? other = some bucket) :
  0 ≤ bucket.tokens ∧ bucket.tokens ≤ limiter.burst ∧ bucket.refilledAt ≤ state.now
  := by
  rw [Dict.get?_set] at hget
  split at hget
  · cases hget
    exact ⟨hnonneg, hle, le_refl _⟩
  · exact h.buckets hget

/-- A call takes a token, and returns within the windows that are open. -/
theorem taken (h : limiter.Kept state) {key : String}
    (hone : 1 ≤ (limiter.refilled state key).tokens) (calls : List (AcquireCall K)) :
  limiter.Kept ⟨state.now,
    state.buckets.set key ⟨(limiter.refilled state key).tokens - 1, state.now⟩, calls,
    state.returns ++ [(key, state.now)]⟩
  := by
  have hburst := (h.refilled key).2
  have hleft : 0 ≤ (limiter.refilled state key).tokens - 1 := sub_nonneg.mpr hone
  have hless : (limiter.refilled state key).tokens - 1 ≤ limiter.burst := by linarith
  have hcount : ∀ (other : String) (fromTime toTime : K),
      returnedWithin ⟨state.now,
        state.buckets.set key ⟨(limiter.refilled state key).tokens - 1, state.now⟩, calls,
        state.returns ++ [(key, state.now)]⟩ other fromTime toTime
        = returnedWithin state other fromTime toTime
          + if key = other ∧ fromTime ≤ state.now ∧ state.now ≤ toTime then 1 else 0 := by
    intro other fromTime toTime
    rw [returnedWithin, List.countP_append, List.countP_singleton, returnedWithin]
    simp only [decide_eq_true_eq]
  constructor
  · exact h.buckets_set hleft hless
  · intro returned hreturned
    rcases List.mem_append.mp hreturned with hold | hnew
    · exact h.returns returned hold
    · rw [List.mem_singleton.mp hnew]
  · intro other fromTime toTime hle
    rw [hcount]
    split
    · rename_i hwithin
      obtain ⟨rfl, -, hnow⟩ := hwithin
      have hopen := h.open_windows key hle hnow
      apply window_of_open hle hnow
      push_cast
      linarith
    · exact h.windows other hle
  · intro other fromTime toTime hle hnow
    have hopen := h.open_windows other hle hnow
    rw [hcount]
    by_cases hsame : key = other
    · subst hsame
      rw [refilled_set_self hless]
      split
      · push_cast
        linarith
      · push_cast
        linarith
    · rw [refilled_set_of_ne hsame, if_neg (fun hboth => hsame hboth.1), Nat.add_zero]
      exact hopen

/-- A call that finds no token leaves its bucket refilled. -/
theorem waits (h : limiter.Kept state) (key : String) (calls : List (AcquireCall K)) :
  limiter.Kept ⟨state.now, state.buckets.set key (limiter.refilled state key), calls, state.returns⟩
  := by
  obtain ⟨hnonneg, hburst⟩ := h.refilled key
  constructor
  · exact h.buckets_set hnonneg hburst
  · exact h.returns
  · exact h.windows
  · intro other fromTime toTime hle hnow
    have hopen := h.open_windows other hle hnow
    by_cases hsame : key = other
    · subst hsame
      have hself := @refilled_set_self K _ _ limiter state key
        (limiter.refilled state key).tokens hburst calls state.returns
      exact hself.symm ▸ hopen
    · rw [refilled_set_of_ne hsame]
      exact hopen

omit [IsStrictOrderedRing K] in
/-- The calls do not matter. -/
theorem calls (h : limiter.Kept state) (calls : List (AcquireCall K)) :
  limiter.Kept { state with calls := calls }
  := ⟨h.buckets, h.returns, h.windows, h.open_windows⟩

theorem attempt (h : limiter.Kept state) (i : ℕ) (key : String) :
  limiter.Kept (limiter.attempt state i key)
  := by
  rw [InMemoryRateLimiter.attempt]
  split
  · rename_i hone
    exact h.taken hone _
  · exact h.waits key _

/-- An action keeps the bounds. -/
theorem step (h : limiter.Kept state) {action : LimiterAction K} {state' : LimiterState K}
    (hstep : limiter.step state action = some state') :
  limiter.Kept state'
  := by
  cases action with
  | elapse span =>
      rw [InMemoryRateLimiter.step] at hstep
      split at hstep
      · rename_i hspan
        obtain rfl := Option.some.inj hstep
        exact h.elapse hspan
      · cases hstep
  | call key =>
      obtain rfl := Option.some.inj hstep
      exact h.calls _
  | turn i =>
      rw [InMemoryRateLimiter.step] at hstep
      split at hstep
      · obtain rfl := Option.some.inj hstep
        exact h.attempt i _
      · obtain rfl := Option.some.inj hstep
        exact h.attempt i _
      · cases hstep
  | cancel i =>
      rw [InMemoryRateLimiter.step] at hstep
      split at hstep
      · obtain rfl := Option.some.inj hstep
        exact h.calls _
      · obtain rfl := Option.some.inj hstep
        exact h.calls _
      · cases hstep

end Kept

end InMemoryRateLimiter

/-- A limiter never holds fewer tokens than none or more than the burst, and in every window of time
the calls for a key that return are no more than the burst and the rate over the window, however the
calls come one after another. -/
theorem returned_le {K : Type} [Field K] [LinearOrder K] [IsStrictOrderedRing K]
    (limiter : InMemoryRateLimiter K) (now : K) {actions : List (LimiterAction K)}
    {state : LimiterState K}
    (hrun : TransitionSystem.run limiter.step (InMemoryRateLimiter.initial now) actions
      = some state) :
  (∀ key bucket, state.buckets.get? key = some bucket →
      0 ≤ bucket.tokens ∧ bucket.tokens ≤ limiter.burst)
    ∧ ∀ key fromTime toTime, fromTime ≤ toTime →
      (InMemoryRateLimiter.returnedWithin state key fromTime toTime : K)
        ≤ limiter.burst + limiter.rate * (toTime - fromTime)
  := by
  have hkept : limiter.Kept state :=
    TransitionSystem.run_invariant (fun _ _ _ h hstep => h.step hstep) (.initial now) hrun
  constructor
  · intro key bucket hget
    obtain ⟨hnonneg, hle, -⟩ := hkept.buckets hget
    exact ⟨hnonneg, hle⟩
  · exact fun key fromTime toTime hle => hkept.windows key hle

/-- A limiter of one token a second. -/
def secondLimiter : InMemoryRateLimiter ℚ where
  rate := 1
  burst := 1
  rate_pos := one_pos
  one_le_burst := le_refl 1

/-- The second of two calls sleeps for a second. -/
def contendedActions : List (LimiterAction ℚ) :=
  [.call "search", .turn 0, .call "search", .turn 1, .elapse 1, .turn 1]

/-- Both of two calls for a key return within a second, which is what the burst and the rate allow. -/
theorem returned_le_contended :
  ∃ state, TransitionSystem.run secondLimiter.step (InMemoryRateLimiter.initial 0) contendedActions
      = some state
    ∧ InMemoryRateLimiter.returnedWithin state "search" 0 1 = 2
    ∧ (InMemoryRateLimiter.returnedWithin state "search" 0 1 : ℚ)
      ≤ secondLimiter.burst + secondLimiter.rate * (1 - 0)
  := by
  have hcount : (TransitionSystem.run secondLimiter.step (InMemoryRateLimiter.initial 0)
        contendedActions).map
        (fun state => InMemoryRateLimiter.returnedWithin state "search" 0 1)
      = some 2 := by decide +kernel
  obtain ⟨state, hrun, htwo⟩ := Option.map_eq_some_iff.mp hcount
  refine ⟨state, hrun, htwo, ?_⟩
  exact (returned_le secondLimiter 0 hrun).2 "search" 0 1 (by norm_num)

end Orcastork
