import Orcastork.Library.TransitionSystem

/-!
# Waiters that are woken

Waiters wait for something to be pending, and whoever makes it pending announces that. A wakeup is
lost if a waiter sleeps on while something is pending and nothing is left to be announced. The rule
for showing that none is lost is an invariant from which the waiters get on by their own steps.
-/

universe u v w

namespace TransitionSystem

/-- Waiters for something to be pending. -/
structure Wakeups (State : Type u) (Action : Type v) (Waiter : Type w) where
  start : State
  step : State → Action → Option State
  pending : State → Prop
  /-- Something was made pending, and that is not announced yet. -/
  unannounced : State → Prop
  waiting : State → Waiter → Prop
  returned : State → Waiter → Prop
  /-- The steps a waiter takes by itself. -/
  own : Waiter → Action → Prop

variable {State : Type u} {Action : Type v} {Waiter : Type w}

/-- Whenever something is pending and announced, every waiter returns by its own steps. -/
def Wakeups.NeverLost (wakeups : Wakeups State Action Waiter) : Prop :=
  ∀ actions s, run wakeups.step wakeups.start actions = some s → wakeups.pending s →
    ¬wakeups.unannounced s → ∀ waiter, wakeups.waiting s waiter →
      ∃ next, (∀ action ∈ next, wakeups.own waiter action)
        ∧ ∃ s', run wakeups.step s next = some s' ∧ wakeups.returned s' waiter

/-- No wakeup is lost if an invariant says of each waiter that it is not asleep. -/
theorem Wakeups.neverLost_of_invariant {wakeups : Wakeups State Action Waiter} {I : State → Prop}
    (hstart : I wakeups.start)
    (hstep : ∀ s action s', I s → wakeups.step s action = some s' → I s')
    (hwakes : ∀ s, I s → wakeups.pending s → ¬wakeups.unannounced s → ∀ waiter,
      wakeups.waiting s waiter → ∃ next, (∀ action ∈ next, wakeups.own waiter action)
        ∧ ∃ s', run wakeups.step s next = some s' ∧ wakeups.returned s' waiter) :
  wakeups.NeverLost
  := by
  intro actions s hrun
  apply hwakes s
  apply run_invariant hstep hstart hrun

end TransitionSystem
