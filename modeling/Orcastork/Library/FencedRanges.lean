import Mathlib.Data.List.Pairwise
import Mathlib.Order.Interval.Finset.Nat
import Orcastork.Library.Fence

/-!
# Ranges of numbers behind a fence

A counter grants ranges of consecutive numbers, each for a token. The token has to pass the
fence of the counter; a grant takes the next numbers and moves the fence.

`Issued` says what the grants of a counter are, in whatever order they are listed: their ranges
are disjoint and make up the numbers from one to the last, and the fence is the highest of their
tokens. So a token is refused exactly when a higher one was granted a range
(`Issued.allocate_eq_none_iff`).
-/

namespace FencedRanges

/-- The last number granted, and the fence. -/
structure Counter where
  last : ℕ
  fence : ℕ
  deriving DecidableEq, Repr

/-- A counter that has granted nothing. -/
def Counter.initial : Counter := ⟨0, 0⟩

/-- A range granted for a token. -/
structure Grant where
  token : ℕ
  first : ℕ
  count : ℕ
  deriving DecidableEq, Repr

/-- The numbers of a grant. -/
def Grant.numbers (grant : Grant) : Finset ℕ :=
  Finset.Ico grant.first (grant.first + grant.count)

@[simp]
theorem Grant.mem_numbers {grant : Grant} {n : ℕ} :
  n ∈ grant.numbers ↔ grant.first ≤ n ∧ n < grant.first + grant.count
  := Finset.mem_Ico

/-- The next numbers for a token, and the counter behind them, unless the token is refused. -/
def Counter.allocate (counter : Counter) (token count : ℕ) : Option (Grant × Counter) :=
  (Fence.accept counter.fence token).map (fun fence =>
    (⟨token, counter.last + 1, count⟩, ⟨counter.last + count, fence⟩))

theorem Counter.allocate_eq_none_iff {counter : Counter} {token count : ℕ} :
  counter.allocate token count = none ↔ token < counter.fence
  := by
  rw [allocate, Option.map_eq_none_iff, Fence.accept_eq_none_iff]

theorem Counter.allocate_eq_some_iff {counter counter' : Counter} {token count : ℕ}
    {grant : Grant} :
  counter.allocate token count = some (grant, counter')
    ↔ counter.fence ≤ token ∧ grant = ⟨token, counter.last + 1, count⟩
      ∧ counter' = ⟨counter.last + count, token⟩
  := by
  rw [allocate, Option.map_eq_some_iff]
  simp only [Fence.accept_eq_some_iff, Prod.mk.injEq]
  constructor
  · rintro ⟨_, ⟨hle, rfl⟩, rfl, rfl⟩
    use hle
  · rintro ⟨hle, rfl, rfl⟩
    use token, ⟨hle, rfl⟩, rfl

/-- What a counter has granted. -/
structure Issued (counter : Counter) (grants : List Grant) : Prop where
  disjoint : grants.Pairwise (fun grant other => Disjoint grant.numbers other.numbers)
  covers : ∀ n, (∃ grant ∈ grants, n ∈ grant.numbers) ↔ 0 < n ∧ n ≤ counter.last
  token_le : ∀ grant ∈ grants, grant.token ≤ counter.fence
  fence_mem : 0 < counter.fence → ∃ grant ∈ grants, grant.token = counter.fence

theorem issued_initial :
  Issued .initial []
  := by
  constructor
  · apply List.Pairwise.nil
  · intro n
    constructor
    · rintro ⟨grant, hgrant, -⟩
      cases hgrant
    · rintro ⟨hpos, hle⟩
      exact absurd hle (Nat.not_le.mpr hpos)
  · nofun
  · nofun

namespace Issued

variable {counter counter' : Counter} {grants grants' : List Grant} {grant : Grant}
  {token count : ℕ}

/-- In which order grants are listed does not matter. -/
theorem perm (h : Issued counter grants) (hperm : grants.Perm grants') :
  Issued counter grants'
  := by
  have hmem (g : Grant) : g ∈ grants' ↔ g ∈ grants := hperm.mem_iff.symm
  constructor
  · apply hperm.pairwise h.disjoint
    intro a b hab
    apply hab.symm
  · simp only [hmem]
    apply h.covers
  · simp only [hmem]
    apply h.token_le
  · simp only [hmem]
    apply h.fence_mem

/-- A token is refused exactly when a higher one was granted a range. -/
theorem allocate_eq_none_iff (h : Issued counter grants) :
  counter.allocate token count = none ↔ ∃ grant ∈ grants, token < grant.token
  := by
  rw [Counter.allocate_eq_none_iff]
  constructor
  · intro hlt
    obtain ⟨grant, hgrant, hfence⟩ := h.fence_mem (Nat.zero_lt_of_lt hlt)
    use grant, hgrant
    rw [hfence]
    apply hlt
  · rintro ⟨grant, hgrant, hlt⟩
    apply hlt.trans_le (h.token_le grant hgrant)

/-- A further grant is disjoint from the others, and goes on where they end. -/
theorem allocate (h : Issued counter grants)
    (hallocate : counter.allocate token count = some (grant, counter')) :
  Issued counter' (grants ++ [grant])
  := by
  obtain ⟨hle, rfl, rfl⟩ := Counter.allocate_eq_some_iff.mp hallocate
  constructor
  · rw [List.pairwise_append]
    use h.disjoint, List.pairwise_singleton _ _
    rintro other hother _ hmem
    rw [List.mem_singleton] at hmem
    rw [hmem, Finset.disjoint_left]
    intro n hn hnew
    have hlast := ((h.covers n).mp ⟨other, hother, hn⟩).2
    rw [Grant.mem_numbers] at hnew
    exact absurd hlast (Nat.not_le.mpr hnew.1)
  · intro n
    simp only [List.mem_append, List.mem_singleton, or_and_right, exists_or, exists_eq_left]
    rw [h.covers n, Grant.mem_numbers]
    dsimp only
    omega
  · intro other hother
    rw [List.mem_append, List.mem_singleton] at hother
    obtain hother | rfl := hother
    · apply (h.token_le other hother).trans hle
    · apply Nat.le_refl
  · intro
    use ⟨token, counter.last + 1, count⟩
    constructor
    · apply List.mem_append_right _ (List.mem_singleton_self _)
    · rfl

end Issued

end FencedRanges
