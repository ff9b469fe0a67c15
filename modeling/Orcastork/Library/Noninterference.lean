import Mathlib.Data.List.Basic
import Mathlib.Data.List.Induction
import Mathlib.Tactic.Common

/-!
# Noninterference by unwinding

Two parties take turns on one state. The foreign party does not interfere with a run if,
after every part of it, the state looks to the own party as if the foreign actions had not
been taken.

An `Unwinding` reduces this to single steps: own actions on states that look alike lead to
states that look alike, and a foreign action leaves what the own party sees as it was,
unless it is harmful where it is taken. The runs without interference are then exactly those
without a harmful action (`Unwinding.noninterference_iff`).
-/

universe u v

variable {State : Type u} {Action : Type v}

/-- What single steps satisfy, for a step function, the foreign actions, the actions that can
occur, an invariant, an equivalence of states that look alike, and the foreign actions that
are harmful in a state. -/
structure Unwinding (step : State → Action → State) (foreign : Action → Bool)
    (allowed : Action → Prop) (inv : State → Prop) (alike : State → State → Prop)
    (harmful : State → Action → Prop) : Prop where
  equivalence : Equivalence alike
  inv_step : ∀ {s a}, inv s → allowed a → inv (step s a)
  consistent : ∀ {s t a}, inv s → inv t → allowed a → foreign a = false → alike s t →
    alike (step s a) (step t a)
  respects : ∀ {s a}, inv s → allowed a → foreign a = true → ¬harmful s a → alike (step s a) s
  exact : ∀ {s a}, inv s → foreign a = true → harmful s a → ¬alike (step s a) s

namespace Unwinding

variable {step : State → Action → State} {foreign : Action → Bool} {allowed : Action → Prop}
variable {inv : State → Prop} {alike : State → State → Prop} {harmful : State → Action → Prop}

/-- The actions of the own party. -/
def own (foreign : Action → Bool) (actions : List Action) : List Action :=
  actions.filter (fun a => !foreign a)

theorem inv_run (h : Unwinding step foreign allowed inv alike harmful) {s : State}
    (hs : inv s) {actions : List Action} (hallowed : ∀ a ∈ actions, allowed a) :
  inv (actions.foldl step s)
  := by
  induction actions generalizing s with
  | nil => exact hs
  | cons a actions ih =>
      apply ih
      · apply h.inv_step hs
        apply hallowed
        exact List.mem_cons_self
      · intro b hb
        apply hallowed
        exact List.mem_cons_of_mem a hb

/-- A run without harmful actions looks as if the own party had been alone. -/
theorem alike_own (h : Unwinding step foreign allowed inv alike harmful) {s : State}
    (hs : inv s) {actions : List Action} (hallowed : ∀ a ∈ actions, allowed a)
    (hharmless : ∀ before a after, actions = before ++ a :: after → foreign a = true →
      ¬harmful (before.foldl step s) a) :
  alike (actions.foldl step s) ((own foreign actions).foldl step s)
  := by
  induction actions using List.reverseRecOn with
  | nil => exact h.equivalence.refl s
  | append_singleton actions a ih =>
      have hallowed' : ∀ b ∈ actions, allowed b := by
        intro b hb
        apply hallowed
        exact List.mem_append_left _ hb
      have ha : allowed a := by
        apply hallowed
        simp
      have halike := ih hallowed' (by
        intro before b after hsplit
        apply hharmless before b (after ++ [a])
        rw [hsplit, List.append_assoc, List.cons_append])
      have hinv := h.inv_run hs hallowed'
      rw [own, List.filter_append, List.foldl_append]
      cases hforeign : foreign a with
      | true =>
          simp only [List.filter_singleton, hforeign, Bool.not_true, cond_false,
            List.append_nil, List.foldl_cons, List.foldl_nil]
          apply h.equivalence.trans _ halike
          apply h.respects hinv ha hforeign
          exact hharmless actions a [] rfl hforeign
      | false =>
          simp only [List.filter_singleton, hforeign, Bool.not_false, cond_true,
            List.foldl_append, List.foldl_cons, List.foldl_nil]
          apply h.consistent hinv _ ha hforeign halike
          apply h.inv_run hs
          intro b hb
          apply hallowed'
          exact List.mem_of_mem_filter hb

/-- The foreign party does not interfere with a run exactly when none of its actions is
harmful where it is taken. -/
theorem noninterference_iff (h : Unwinding step foreign allowed inv alike harmful) {s : State}
    (hs : inv s) {actions : List Action} (hallowed : ∀ a ∈ actions, allowed a) :
  (∀ part, part <+: actions → alike (part.foldl step s) ((own foreign part).foldl step s))
    ↔ ∀ before a after, actions = before ++ a :: after → foreign a = true →
      ¬harmful (before.foldl step s) a
  := by
  constructor
  · rintro hpart before a after rfl hforeign hharmful
    have hbefore := hpart before (List.prefix_append _ _)
    have hafter := hpart (before ++ [a]) ⟨after, by simp⟩
    have hown : own foreign (before ++ [a]) = own foreign before := by
      simp [own, hforeign]
    rw [hown, List.foldl_append, List.foldl_cons, List.foldl_nil] at hafter
    have hinv : inv (before.foldl step s) := by
      apply h.inv_run hs
      intro b hb
      apply hallowed
      exact List.mem_append_left _ hb
    apply h.exact hinv hforeign hharmful
    exact h.equivalence.trans hafter (h.equivalence.symm hbefore)
  · rintro hharmless part ⟨rest, rfl⟩
    apply h.alike_own hs
    · intro a ha
      apply hallowed
      exact List.mem_append_left _ ha
    · rintro before a after rfl
      apply hharmless before a (after ++ rest)
      rw [List.append_assoc, List.cons_append]

end Unwinding
