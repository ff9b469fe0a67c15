import Mathlib.Algebra.Order.Floor.Ring
import Mathlib.Data.Rat.Floor
import Orcastork.Library.TokenBucket
import Orcastork.Library.TransitionSystem

/-!
# The Redis rate limiter

`RedisRateLimiter` keeps one token bucket for all the pods of a fleet, and each execution of its script
refills the bucket by the time since the execution before, takes a token, and reports the wait. The
time is that of the clock of the pod, so it may go back from one execution to the next. A step back
credits nothing, but it is stored all the same, and the next step forward credits the same time again.
What is granted is within the burst and the rate over the spread of the times exactly where the steps
forward are no more than the spread (`granted_le_iff`).

Numbers are those of an ordered field, and what the key is set to expire after is left out: a key is
expired only where the bucket would be full again.
-/

namespace Orcastork

/-- `RedisRateLimiter`, as its constructor lets it be. -/
structure RedisRateLimiter (K : Type) [Field K] [LinearOrder K] where
  ratePerSecond : K
  burst : ℤ
  rate_pos : 0 < ratePerSecond
  one_le_burst : 1 ≤ burst

/-- The hash of a bucket. -/
structure BucketHash (K : Type) where
  tokens : K
  refillMs : ℤ
  deriving DecidableEq

/-- An execution of the script: the time of its pod, and whether the key has expired before it. -/
structure AcquireExecution where
  nowMs : ℤ
  expired : Bool

/-- A bucket, and how many tokens were granted. -/
structure FleetBucket (K : Type) where
  stored : Option (BucketHash K)
  granted : ℕ
  deriving DecidableEq

namespace RedisRateLimiter

variable {K : Type} [Field K] [LinearOrder K] (limiter : RedisRateLimiter K)

/-- `_rate_per_ms`. -/
def ratePerMs : K := limiter.ratePerSecond / 1000

/-- The tokens that a step of the time is worth; a step back is worth none. -/
def elapsedTokens (fromMs toMs : ℤ) : K := (max (toMs - fromMs) 0 : ℤ) * limiter.ratePerMs

/-- `_ACQUIRE_SCRIPT`: the wait that is reported, none for a token that is taken, and the bucket. -/
def acquireScript [FloorRing K] (stored : Option (BucketHash K)) (nowMs : ℤ) : ℤ × BucketHash K :=
  let state := stored.getD ⟨limiter.burst, nowMs⟩
  let tokens := min (limiter.burst : K)
    (state.tokens + limiter.elapsedTokens state.refillMs nowMs)
  if 1 ≤ tokens then
    (0, ⟨tokens - 1, nowMs⟩)
  else
    (⌈(1 - tokens) / limiter.ratePerMs⌉, ⟨tokens, nowMs⟩)

/-- A bucket would be full again at a time. -/
def fullAgain (stored : Option (BucketHash K)) (nowMs : ℤ) : Bool :=
  stored.all (fun state =>
    decide ((limiter.burst : K) ≤ state.tokens + limiter.elapsedTokens state.refillMs nowMs))

/-- An execution of the script. The key is expired only if the bucket would be full again. -/
def step [FloorRing K] (fleet : FleetBucket K) (execution : AcquireExecution) :
    Option (FleetBucket K) :=
  if execution.expired && !limiter.fullAgain fleet.stored execution.nowMs then
    none
  else
    let stored := if execution.expired then none else fleet.stored
    let result := limiter.acquireScript stored execution.nowMs
    some ⟨some result.2, fleet.granted + if result.1 = 0 then 1 else 0⟩

end RedisRateLimiter

/-! ### Times -/

/-- The steps forward of some times, added up. -/
def forwardMs : List ℤ → ℤ
  | [] => 0
  | [_] => 0
  | t :: t' :: times => max (t' - t) 0 + forwardMs (t' :: times)

/-- The latest of some times less the earliest. -/
def spreadMs : List ℤ → ℤ
  | [] => 0
  | t :: times => times.foldl max t - times.foldl min t

theorem spreadMs_nonneg (times : List ℤ) :
  0 ≤ spreadMs times
  := by
  cases times with
  | nil => exact le_refl _
  | cons t times =>
      have hmax : ∀ (times : List ℤ) (t : ℤ), t ≤ times.foldl max t := by
        intro times
        induction times with
        | nil => exact fun t => le_refl t
        | cons t' times ih => exact fun t => (le_max_left t t').trans (ih _)
      have hmin : ∀ (times : List ℤ) (t : ℤ), times.foldl min t ≤ t := by
        intro times
        induction times with
        | nil => exact fun t => le_refl t
        | cons t' times ih => exact fun t => (ih _).trans (min_le_left t t')
      exact sub_nonneg.mpr ((hmin times t).trans (hmax times t))

theorem forwardMs_cons_self (t : ℤ) (times : List ℤ) :
  forwardMs (t :: t :: times) = forwardMs (t :: times)
  := by
  rw [forwardMs, sub_self, max_self, zero_add]

namespace RedisRateLimiter

variable {K : Type} [Field K] [LinearOrder K] {limiter : RedisRateLimiter K}

variable (limiter) in
/-- What the bucket is credited with at some times, one after another. -/
def credits : ℤ → List ℤ → List K
  | _, [] => []
  | t, t' :: times => limiter.elapsedTokens t t' :: credits t' times

/-- The script refills the bucket by the time since the last execution. -/
theorem acquireScript_some [FloorRing K] (state : BucketHash K) (nowMs : ℤ) :
  limiter.acquireScript (some state) nowMs
    = let tokens := TokenBucket.refill (limiter.burst : K) state.tokens
        (limiter.elapsedTokens state.refillMs nowMs)
      if 1 ≤ tokens then
        (0, ⟨tokens - 1, nowMs⟩)
      else
        (⌈(1 - tokens) / limiter.ratePerMs⌉, ⟨tokens, nowMs⟩)
  := rfl

variable [IsStrictOrderedRing K]

theorem ratePerMs_pos :
  0 < limiter.ratePerMs
  := div_pos limiter.rate_pos (by norm_num)

theorem elapsedTokens_nonneg (fromMs toMs : ℤ) :
  0 ≤ limiter.elapsedTokens fromMs toMs
  := by
  apply mul_nonneg
  · exact Int.cast_nonneg (le_max_right _ _)
  · exact ratePerMs_pos.le

theorem credits_nonneg (t : ℤ) (times : List ℤ) :
  ∀ credit ∈ limiter.credits t times, 0 ≤ credit
  := by
  induction times generalizing t with
  | nil => exact nofun
  | cons t' times ih =>
      rw [credits, List.forall_mem_cons]
      exact ⟨elapsedTokens_nonneg t t', ih t'⟩

omit [IsStrictOrderedRing K] in
/-- What is credited is what the steps forward are worth. -/
theorem sum_credits (t : ℤ) (times : List ℤ) :
  (limiter.credits t times).sum = forwardMs (t :: times) * limiter.ratePerMs
  := by
  induction times generalizing t with
  | nil => rw [credits, List.sum_nil, forwardMs, Int.cast_zero, zero_mul]
  | cons t' times ih => rw [credits, List.sum_cons, ih, forwardMs, Int.cast_add, add_mul, elapsedTokens]

/-- To expire a bucket that would be full again loses nothing. -/
theorem acquireScript_of_fullAgain [FloorRing K] {stored : Option (BucketHash K)} {nowMs : ℤ}
    (h : limiter.fullAgain stored nowMs = true) :
  limiter.acquireScript none nowMs = limiter.acquireScript stored nowMs
  := by
  cases stored with
  | none => rfl
  | some state =>
      rw [fullAgain, Option.all_some, decide_eq_true_eq] at h
      have hnow : (limiter.burst : K) ≤ limiter.burst + limiter.elapsedTokens nowMs nowMs :=
        le_add_of_nonneg_right (elapsedTokens_nonneg _ _)
      rw [acquireScript, acquireScript]
      simp only [Option.getD_none, Option.getD_some, min_eq_left h, min_eq_left hnow]

/-- The script reports no wait exactly if it takes a token. -/
theorem acquireScript_wait [FloorRing K] (state : BucketHash K) (nowMs : ℤ) :
  (limiter.acquireScript (some state) nowMs).1 = 0
    ↔ 1 ≤ TokenBucket.refill (limiter.burst : K) state.tokens
      (limiter.elapsedTokens state.refillMs nowMs)
  := by
  rw [acquireScript_some]
  simp only
  split
  · rename_i hone
    exact iff_of_true rfl hone
  · rename_i hlow
    refine iff_of_false (ne_of_gt ?_) hlow
    apply Int.ceil_pos.mpr
    apply div_pos _ ratePerMs_pos
    exact sub_pos.mpr (not_le.mp hlow)

/-- An execution takes a token of the bucket, refilled, if there is one. -/
theorem step_eq_some [FloorRing K] {fleet fleet' : FleetBucket K} {execution : AcquireExecution}
    {state : BucketHash K} (hstored : fleet.stored = some state)
    (h : limiter.step fleet execution = some fleet') :
  fleet' =
    if 1 ≤ TokenBucket.refill (limiter.burst : K) state.tokens
        (limiter.elapsedTokens state.refillMs execution.nowMs) then
      ⟨some ⟨TokenBucket.refill (limiter.burst : K) state.tokens
        (limiter.elapsedTokens state.refillMs execution.nowMs) - 1, execution.nowMs⟩,
        fleet.granted + 1⟩
    else
      ⟨some ⟨TokenBucket.refill (limiter.burst : K) state.tokens
        (limiter.elapsedTokens state.refillMs execution.nowMs), execution.nowMs⟩, fleet.granted⟩
  := by
  rw [step] at h
  split at h
  · cases h
  · rename_i hlossless
    have hscript : limiter.acquireScript (if execution.expired then none else fleet.stored)
        execution.nowMs = limiter.acquireScript (some state) execution.nowMs := by
      rw [← hstored]
      split
      · rename_i hexpired
        rw [hexpired, Bool.true_and, Bool.not_eq_true', Bool.not_eq_false] at hlossless
        exact acquireScript_of_fullAgain hlossless
      · rfl
    obtain rfl := Option.some.inj h
    simp only [hscript]
    have hwait := @acquireScript_wait K _ _ limiter _ _ state execution.nowMs
    by_cases hone : 1 ≤ TokenBucket.refill (limiter.burst : K) state.tokens
        (limiter.elapsedTokens state.refillMs execution.nowMs)
    · rw [if_pos (hwait.mpr hone), if_pos hone, acquireScript_some]
      simp only [if_pos hone]
    · rw [if_neg (fun hzero => hone (hwait.mp hzero)), if_neg hone, acquireScript_some]
      simp only [if_neg hone, Nat.add_zero]

/-- The executions draw on the bucket. -/
theorem granted_run [FloorRing K] {fleet fleet' : FleetBucket K}
    {executions : List AcquireExecution} {state : BucketHash K} (hstored : fleet.stored = some state)
    (h : TransitionSystem.run limiter.step fleet executions = some fleet') :
  fleet'.granted = fleet.granted + (TokenBucket.draw (limiter.burst : K) state.tokens
    (limiter.credits state.refillMs (executions.map AcquireExecution.nowMs))).1
  := by
  induction executions generalizing fleet state with
  | nil =>
      obtain rfl := Option.some.inj h
      rfl
  | cons execution executions ih =>
      obtain ⟨next, hnext, hrest⟩ := TransitionSystem.run_cons_eq_some.mp h
      have hnext := step_eq_some hstored hnext
      rw [List.map_cons, credits, TokenBucket.draw]
      split at hnext
      · rename_i hone
        rw [if_pos hone]
        subst hnext
        rw [ih rfl hrest]
        simp only
        omega
      · rename_i hlow
        rw [if_neg hlow]
        subst hnext
        exact ih rfl hrest

/-- A bucket without a hash is a full one. -/
theorem step_none [FloorRing K] (granted : ℕ) (execution : AcquireExecution) :
  limiter.step ⟨none, granted⟩ execution
    = limiter.step ⟨some ⟨limiter.burst, execution.nowMs⟩, granted⟩ execution
  := by
  have hfull : limiter.fullAgain (some ⟨limiter.burst, execution.nowMs⟩) execution.nowMs = true := by
    rw [fullAgain, Option.all_some, decide_eq_true_eq]
    exact le_add_of_nonneg_right (elapsedTokens_nonneg _ _)
  have hnone : limiter.fullAgain none execution.nowMs = true := rfl
  rw [step, step, hfull, hnone]
  cases execution.expired with
  | true => rfl
  | false => rfl

/-- The executions from a bucket without a hash draw on a full one. -/
theorem granted_of_run [FloorRing K] {fleet : FleetBucket K} {executions : List AcquireExecution}
    {t : ℤ} {times : List ℤ} (htimes : executions.map AcquireExecution.nowMs = t :: times)
    (h : TransitionSystem.run limiter.step ⟨none, 0⟩ executions = some fleet) :
  fleet.granted
    = (TokenBucket.draw (limiter.burst : K) limiter.burst (limiter.credits t (t :: times))).1
  := by
  cases executions with
  | nil => cases htimes
  | cons execution executions =>
      have hfull : TransitionSystem.run limiter.step
          ⟨some ⟨limiter.burst, execution.nowMs⟩, 0⟩ (execution :: executions) = some fleet := by
        rw [TransitionSystem.run, ← step_none]
        exact h
      have hgranted := granted_run rfl hfull
      obtain ⟨rfl, rfl⟩ := List.cons.inj htimes
      rw [hgranted, Nat.zero_add]
      rfl

/-- No more is granted than the burst and what the steps forward are worth. -/
theorem granted_le_forward [FloorRing K] {fleet : FleetBucket K}
    {executions : List AcquireExecution}
    (h : TransitionSystem.run limiter.step ⟨none, 0⟩ executions = some fleet) :
  (fleet.granted : K)
    ≤ limiter.burst + limiter.ratePerMs * forwardMs (executions.map AcquireExecution.nowMs)
  := by
  have hburst : (0 : K) ≤ limiter.burst := by
    exact_mod_cast zero_le_one.trans limiter.one_le_burst
  cases htimes : executions.map AcquireExecution.nowMs with
  | nil =>
      rw [List.map_eq_nil_iff] at htimes
      subst htimes
      obtain rfl := Option.some.inj h
      rw [forwardMs, Int.cast_zero, mul_zero, add_zero, Nat.cast_zero]
      exact hburst
  | cons t times =>
      have hcredits := @credits_nonneg K _ _ limiter _ t (t :: times)
      have hle := TokenBucket.granted_add_le (limiter.burst : K) limiter.burst
        (limiter.credits t (t :: times))
      have hnonneg := TokenBucket.tokens_nonneg hburst hburst hcredits
      rw [sum_credits, forwardMs_cons_self, ← granted_of_run htimes h] at hle
      linarith

omit [IsStrictOrderedRing K] in
/-- Every execution of a bucket whose key does not expire goes through. -/
theorem exists_run [FloorRing K] (fleet : FleetBucket K) (times : List ℤ) :
  ∃ fleet', TransitionSystem.run limiter.step fleet (times.map (fun t => ⟨t, false⟩)) = some fleet'
  := by
  induction times generalizing fleet with
  | nil => exact ⟨fleet, rfl⟩
  | cons t times ih =>
      obtain ⟨fleet', hrun⟩ := ih ⟨some (limiter.acquireScript fleet.stored t).2,
        fleet.granted + if (limiter.acquireScript fleet.stored t).1 = 0 then 1 else 0⟩
      exact ⟨fleet', hrun⟩

/-- Where the steps forward are more than the spread, some limiter grants more than it should: one that
grants one token for all of the steps forward. -/
theorem exists_overdraw [FloorRing K] {times : List ℤ} (h : spreadMs times < forwardMs times) :
  ∃ limiter : RedisRateLimiter K, ∃ fleet,
    TransitionSystem.run limiter.step ⟨none, 0⟩ (times.map (fun t => ⟨t, false⟩)) = some fleet
      ∧ (limiter.burst : K) + limiter.ratePerMs * spreadMs times < fleet.granted
  := by
  have hpos : (0 : K) < forwardMs times := by
    exact_mod_cast (spreadMs_nonneg times).trans_lt h
  let limiter : RedisRateLimiter K :=
    { ratePerSecond := 1000 / forwardMs times
      burst := 1
      rate_pos := div_pos (by norm_num) hpos
      one_le_burst := le_refl 1 }
  have hrate : limiter.ratePerMs = 1 / forwardMs times := by
    rw [ratePerMs, div_right_comm, div_self (by norm_num)]
  obtain ⟨fleet, hrun⟩ := @exists_run K _ _ limiter _ ⟨none, 0⟩ times
  refine ⟨limiter, fleet, hrun, ?_⟩
  cases times with
  | nil => exact absurd h (lt_irrefl _)
  | cons t rest =>
      have htimes : ((t :: rest).map (fun t => (⟨t, false⟩ : AcquireExecution))).map
          AcquireExecution.nowMs = t :: rest := by
        rw [List.map_map]
        exact List.map_id _
      have hgranted := granted_of_run htimes hrun
      -- The first execution takes the only token.
      have hfull : TokenBucket.refill (limiter.burst : K) limiter.burst
          (limiter.elapsedTokens t t) = 1 := by
        rw [TokenBucket.refill, min_eq_left]
        · exact Int.cast_one
        · exact le_add_of_nonneg_right (elapsedTokens_nonneg _ _)
      rw [credits, TokenBucket.draw, hfull, if_pos (le_refl 1), sub_self] at hgranted
      -- If that was all, then all of the credit would be left, which is a token.
      have hsecond : (TokenBucket.draw (limiter.burst : K) 0 (limiter.credits t rest)).1 ≠ 0 := by
        intro hnone
        have hburst : (1 : K) ≤ limiter.burst := Int.cast_one.ge
        obtain ⟨hkept, hbelow⟩ := TokenBucket.tokens_of_granted_eq_zero hburst hnone
        rw [sum_credits, hrate, mul_one_div_cancel hpos.ne', zero_add] at hkept
        rw [hkept] at hbelow
        apply lt_irrefl (1 : K)
        apply hbelow
        cases rest with
        | nil =>
            have hnone : spreadMs [t] = 0 := sub_self t
            rw [hnone] at h
            exact absurd h (lt_irrefl 0)
        | cons t' rest => exact List.cons_ne_nil _ _
      have htwo : (2 : K) ≤ fleet.granted := by
        rw [hgranted]
        exact_mod_cast Nat.succ_le_succ (Nat.one_le_iff_ne_zero.mpr hsecond)
      have hspread : limiter.ratePerMs * spreadMs (t :: rest) < 1 := by
        rw [hrate, one_div_mul_eq_div, div_lt_one hpos]
        exact_mod_cast h
      have hone : (limiter.burst : K) = 1 := Int.cast_one
      linarith

end RedisRateLimiter

/-- The executions of the script at some times, by any limiter and whether or not the key expires,
grant no more than the burst and the rate over the spread of the times exactly if the steps forward
are no more than the spread. -/
theorem granted_le_iff {K : Type} [Field K] [LinearOrder K] [IsStrictOrderedRing K] [FloorRing K]
    (times : List ℤ) :
  (∀ (limiter : RedisRateLimiter K) (executions : List AcquireExecution) (fleet : FleetBucket K),
      executions.map AcquireExecution.nowMs = times →
      TransitionSystem.run limiter.step ⟨none, 0⟩ executions = some fleet →
      (fleet.granted : K) ≤ limiter.burst + limiter.ratePerMs * spreadMs times)
    ↔ forwardMs times ≤ spreadMs times
  := by
  constructor
  · intro hbound
    rw [← not_lt]
    intro hmore
    obtain ⟨limiter, fleet, hrun, hover⟩ := RedisRateLimiter.exists_overdraw (K := K) hmore
    apply absurd _ (not_le.mpr hover)
    apply hbound limiter _ fleet _ hrun
    rw [List.map_map]
    exact List.map_id times
  · rintro hforward limiter executions fleet rfl hrun
    have hle : ((forwardMs (executions.map AcquireExecution.nowMs) : ℤ) : K)
        ≤ spreadMs (executions.map AcquireExecution.nowMs) := Int.cast_le.mpr hforward
    have hmul := mul_le_mul_of_nonneg_left hle limiter.ratePerMs_pos.le
    have hgranted := RedisRateLimiter.granted_le_forward hrun
    linarith

/-- Where the times never go back, what is granted is within the bound. -/
theorem granted_le_nondecreasing :
  forwardMs [0, 5, 5, 9] ≤ spreadMs [0, 5, 5, 9]
    ∧ ∀ (limiter : RedisRateLimiter ℚ) (executions : List AcquireExecution)
      (fleet : FleetBucket ℚ), executions.map AcquireExecution.nowMs = [0, 5, 5, 9] →
      TransitionSystem.run limiter.step ⟨none, 0⟩ executions = some fleet →
      (fleet.granted : ℚ) ≤ limiter.burst + limiter.ratePerMs * spreadMs [0, 5, 5, 9]
  := by
  have hforward : forwardMs [0, 5, 5, 9] ≤ spreadMs [0, 5, 5, 9] := by decide
  use hforward
  apply (granted_le_iff [0, 5, 5, 9]).mpr hforward

theorem one_le_millisecondBurst :
  (1 : ℤ) ≤ 1
  := le_refl 1

/-- A limiter of one token a millisecond, for ℚ. -/
def millisecondLimiter : RedisRateLimiter ℚ where
  ratePerSecond := 1000
  burst := 1
  rate_pos := by norm_num
  one_le_burst := one_le_millisecondBurst

/-- A pod that is a millisecond behind makes the millisecond count twice: three tokens are granted
within a millisecond, and two would be the burst and the rate. -/
theorem granted_twice_by_skew :
  ¬∀ (limiter : RedisRateLimiter ℚ) (executions : List AcquireExecution) (fleet : FleetBucket ℚ),
    TransitionSystem.run limiter.step ⟨none, 0⟩ executions = some fleet →
    (fleet.granted : ℚ)
      ≤ limiter.burst + limiter.ratePerMs * spreadMs (executions.map AcquireExecution.nowMs)
  := by
  intro h
  have hbound := h millisecondLimiter [⟨0, false⟩, ⟨1, false⟩, ⟨0, false⟩, ⟨1, false⟩]
    ⟨some ⟨0, 1⟩, 3⟩ (by decide +kernel)
  have hrate : millisecondLimiter.ratePerMs = 1 := by
    rw [RedisRateLimiter.ratePerMs, millisecondLimiter]
    norm_num
  have hspread : spreadMs ([⟨0, false⟩, ⟨1, false⟩, ⟨0, false⟩, ⟨1, false⟩].map
      AcquireExecution.nowMs) = 1 := rfl
  have hburst : millisecondLimiter.burst = 1 := rfl
  rw [hrate, hspread, hburst] at hbound
  norm_num at hbound

end Orcastork
