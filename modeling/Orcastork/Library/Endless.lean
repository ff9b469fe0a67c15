import Orcastork.Library.TransitionSystem
import Mathlib.Data.List.Range

/-!
# Endless sequences of actions

A system takes the actions of an endless sequence one after another, until there is one that is not
open to it. It comes to an end if a potential pays for the actions: an action may add an income to
it, a productive one takes something from it, the income dries up and productive actions keep
coming (`ends_of_potential`). It never does if an invariant holds open what comes next
(`not_ends_of_invariant`).
-/

universe u v

namespace TransitionSystem

variable {State : Type u} {Action : Type v} {step : State → Action → Option State} {s : State}
  {actions : ℕ → Action}

/-- The state after so many actions of an endless sequence, if all of them were open. -/
def after (step : State → Action → Option State) (s : State) (actions : ℕ → Action) (n : ℕ) :
    Option State :=
  run step s ((List.range n).map actions)

/-- Some action of an endless sequence is not open. -/
def Ends (step : State → Action → Option State) (s : State) (actions : ℕ → Action) : Prop :=
  ∃ n, after step s actions n = none

@[simp]
theorem after_zero :
  after step s actions 0 = some s
  := rfl

theorem after_succ_eq_some {t : State} {n : ℕ} :
  after step s actions (n + 1) = some t
    ↔ ∃ middle, after step s actions n = some middle ∧ step middle (actions n) = some t
  := by
  rw [after, List.range_succ, List.map_append, run_append_eq_some]
  apply exists_congr
  intro middle
  apply and_congr_right
  intro _
  rw [List.map_singleton, run_cons_eq_some]
  constructor
  · rintro ⟨_, hstep, ⟨⟩⟩
    apply hstep
  · intro hstep
    use t, hstep
    rfl

/-- A sequence that does not end goes through a state after every action. -/
theorem exists_after_of_not_ends (h : ¬Ends step s actions) :
  ∃ states : ℕ → State, states 0 = s
    ∧ ∀ n, step (states n) (actions n) = some (states (n + 1))
  := by
  have hsome : ∀ n, ∃ t, after step s actions n = some t := by
    intro n
    apply Option.ne_none_iff_exists'.mp
    intro hnone
    apply h ⟨n, hnone⟩
  choose states hstates using hsome
  use states
  constructor
  · have hzero := hstates 0
    rw [after_zero, Option.some.injEq] at hzero
    apply hzero.symm
  · intro n
    obtain ⟨middle, hmiddle, hstep⟩ := after_succ_eq_some.mp (hstates (n + 1))
    rw [hstates n, Option.some.injEq] at hmiddle
    rw [hmiddle]
    apply hstep

variable {I : ℕ → State → Prop}

/-- A potential that pays for what keeps coming runs dry. -/
theorem ends_of_potential {potential : State → ℕ} {income : ℕ → ℕ} {Productive : ℕ → Prop}
    (hstart : I 0 s)
    (hstep : ∀ n s s', I n s → step s (actions n) = some s' →
      I (n + 1) s' ∧ potential s' ≤ potential s + income n
        ∧ (Productive n → potential s' < potential s + income n))
    (hincome : ∃ k, ∀ n ≥ k, income n = 0) (hproductive : ∀ k, ∃ n ≥ k, Productive n) :
  Ends step s actions
  := by
  by_contra hends
  obtain ⟨states, hzero, hstates⟩ := exists_after_of_not_ends hends
  have hinvariant : ∀ n, I n (states n) := by
    intro n
    induction n with
    | zero =>
        rw [hzero]
        apply hstart
    | succ n ih => apply (hstep n _ _ ih (hstates n)).1
  obtain ⟨k, hdry⟩ := hincome
  -- From then on the potential never rises, and a productive action takes one more from it.
  have hantitone : ∀ m n, k ≤ m → m ≤ n → potential (states n) ≤ potential (states m) := by
    intro m n hm hmn
    induction n, hmn using Nat.le_induction with
    | base => apply Nat.le_refl
    | succ n hmn ih =>
        have hle := (hstep n _ _ (hinvariant n) (hstates n)).2.1
        rw [hdry n (Nat.le_trans hm hmn), Nat.add_zero] at hle
        apply Nat.le_trans hle ih
  have hfalls : ∀ taken, ∃ n ≥ k, potential (states n) + taken ≤ potential (states k) := by
    intro taken
    induction taken with
    | zero => use k, Nat.le_refl k, Nat.le_refl _
    | succ taken ih =>
        obtain ⟨m, hm, htaken⟩ := ih
        obtain ⟨n, hn, hproduces⟩ := hproductive m
        have hk := Nat.le_trans hm hn
        have hlt := (hstep n _ _ (hinvariant n) (hstates n)).2.2 hproduces
        rw [hdry n hk, Nat.add_zero] at hlt
        have hle := hantitone m n hm hn
        use n + 1, Nat.le_succ_of_le hk
        omega
  obtain ⟨n, -, htaken⟩ := hfalls (potential (states k) + 1)
  omega

/-- An invariant that holds open what comes next keeps a sequence from ending. -/
theorem not_ends_of_invariant (hstart : I 0 s)
    (hstep : ∀ n s, I n s → ∃ s', step s (actions n) = some s' ∧ I (n + 1) s') :
  ¬Ends step s actions
  := by
  have hreaches : ∀ n, ∃ t, after step s actions n = some t ∧ I n t := by
    intro n
    induction n with
    | zero => use s, after_zero
    | succ n ih =>
        obtain ⟨middle, hmiddle, hinvariant⟩ := ih
        obtain ⟨t, hopen, ht⟩ := hstep n middle hinvariant
        use t, after_succ_eq_some.mpr ⟨middle, hmiddle, hopen⟩
  rintro ⟨n, hnone⟩
  obtain ⟨t, hsome, -⟩ := hreaches n
  rw [hnone] at hsome
  cases hsome

end TransitionSystem
