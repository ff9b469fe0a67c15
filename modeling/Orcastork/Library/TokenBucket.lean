import Mathlib.Algebra.Order.Field.Basic
import Mathlib.Algebra.BigOperators.Group.List.Basic
import Mathlib.Tactic.Linarith

/-!
# Token buckets

A bucket holds at most `burst` tokens. It is credited before each request, and a request takes a token
if there is one (`draw`). So no more is granted than what was in the bucket and was credited
(`granted_add_le`); and where nothing is granted, nothing of the credit was lost
(`tokens_of_granted_eq_zero`).
-/

universe u

namespace TokenBucket

variable {K : Type u} [Field K] [LinearOrder K]

/-- The tokens of a bucket that is credited. -/
def refill (burst tokens credit : K) : K := min burst (tokens + credit)

/-- The requests of a bucket, each with what is credited before it: how many are granted, and the
tokens that are left. -/
def draw (burst : K) : K → List K → ℕ × K
  | tokens, [] => (0, tokens)
  | tokens, credit :: credits =>
    if 1 ≤ refill burst tokens credit then
      let rest := draw burst (refill burst tokens credit - 1) credits
      (rest.1 + 1, rest.2)
    else
      draw burst (refill burst tokens credit) credits

variable [IsStrictOrderedRing K] {burst tokens credit : K} {credits : List K}

omit [IsStrictOrderedRing K] in
/-- A bucket is credited no more than the credit. -/
theorem refill_le_add (burst tokens credit : K) :
  refill burst tokens credit ≤ tokens + credit
  := min_le_right _ _

/-- A bucket that is credited with more has no more tokens than with that much more. -/
theorem refill_add_le {more : K} (hmore : 0 ≤ more) :
  refill burst tokens (credit + more) ≤ refill burst tokens credit + more
  := by
  rw [refill, refill, ← min_add_add_right, ← add_assoc]
  exact min_le_min_right _ (le_add_of_nonneg_right hmore)

/-- No more is granted than what was in the bucket and was credited. -/
theorem granted_add_le (burst tokens : K) (credits : List K) :
  ((draw burst tokens credits).1 : K) + (draw burst tokens credits).2 ≤ tokens + credits.sum
  := by
  induction credits generalizing tokens with
  | nil =>
      rw [draw, List.sum_nil, Nat.cast_zero, zero_add, add_zero]
  | cons credit credits ih =>
      have hle := refill_le_add burst tokens credit
      rw [draw, List.sum_cons]
      split
      · have hrest := ih (refill burst tokens credit - 1)
        push_cast
        linarith
      · have hrest := ih (refill burst tokens credit)
        linarith

/-- A bucket is not overdrawn. -/
theorem tokens_nonneg (htokens : 0 ≤ tokens) (hburst : 0 ≤ burst)
    (hcredits : ∀ credit ∈ credits, 0 ≤ credit) :
  0 ≤ (draw burst tokens credits).2
  := by
  induction credits generalizing tokens with
  | nil => exact htokens
  | cons credit credits ih =>
      obtain ⟨hcredit, hrest⟩ := List.forall_mem_cons.mp hcredits
      rw [draw]
      split
      · rename_i hone
        exact ih (sub_nonneg.mpr hone) hrest
      · exact ih (le_min hburst (add_nonneg htokens hcredit)) hrest

omit [IsStrictOrderedRing K] in
/-- Where nothing is granted, the bucket has kept all of the credit. -/
theorem tokens_of_granted_eq_zero (hburst : 1 ≤ burst)
    (hnone : (draw burst tokens credits).1 = 0) :
  (draw burst tokens credits).2 = tokens + credits.sum
    ∧ (credits ≠ [] → (draw burst tokens credits).2 < 1)
  := by
  induction credits generalizing tokens with
  | nil =>
      rw [draw, List.sum_nil, add_zero]
      exact ⟨rfl, fun h => absurd rfl h⟩
  | cons credit credits ih =>
      rw [draw] at hnone ⊢
      split at hnone
      · cases hnone
      · rename_i hlow
        have hfew : refill burst tokens credit = tokens + credit := by
          rw [refill, min_eq_right_iff]
          by_contra hmore
          apply hlow
          rw [refill, min_eq_left (not_le.mp hmore).le]
          exact hburst
        rw [if_neg hlow, List.sum_cons, ← add_assoc]
        obtain ⟨hkept, hbelow⟩ := ih hnone
        rw [hfew] at hkept hbelow hlow ⊢
        refine ⟨hkept, fun _ => ?_⟩
        cases credits with
        | nil => exact not_le.mp hlow
        | cons first rest => exact hbelow (List.cons_ne_nil _ _)

end TokenBucket
