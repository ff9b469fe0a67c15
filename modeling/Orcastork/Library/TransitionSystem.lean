import Mathlib.Data.List.Basic
import Mathlib.Data.List.Forall2
import Mathlib.Tactic.Common

/-!
# Runs of a transition system

A transition system is a partial step function: `step s a` is the state after action `a`
in state `s`, or nothing where `a` cannot be taken. A run takes the actions of a list one
after another; whatever interleaves is one list.

An invariant may speak of the actions taken so far. It holds after every run if it holds at
the start and every step keeps it (`run_history`, `run_invariant`).
-/

universe u v

namespace TransitionSystem

variable {State : Type u} {Action : Type v} {step : State → Action → Option State}

/-- The state after the actions of a list, if each can be taken where it is its turn. -/
def run (step : State → Action → Option State) : State → List Action → Option State
  | s, [] => some s
  | s, action :: actions => (step s action).bind (fun s' => run step s' actions)

@[simp]
theorem run_nil (s : State) :
  run step s [] = some s
  := rfl

theorem run_cons_eq_some {s t : State} {action : Action} {actions : List Action} :
  run step s (action :: actions) = some t
    ↔ ∃ s', step s action = some s' ∧ run step s' actions = some t
  := Option.bind_eq_some_iff

/-- A run of a list put together from two is a run of the first and then one of the
second. -/
theorem run_append_eq_some {s t : State} {first second : List Action} :
  run step s (first ++ second) = some t
    ↔ ∃ s', run step s first = some s' ∧ run step s' second = some t
  := by
  induction first generalizing s with
  | nil => simp
  | cons action first ih =>
      simp only [List.cons_append, run_cons_eq_some, ih]
      constructor
      · rintro ⟨s₁, hstep, s₂, hfirst, hsecond⟩
        exact ⟨s₂, ⟨s₁, hstep, hfirst⟩, hsecond⟩
      · rintro ⟨s₂, ⟨s₁, hstep, hfirst⟩, hsecond⟩
        exact ⟨s₁, hstep, s₂, hfirst, hsecond⟩

/-- A property of the actions taken and the state they lead to holds after every run, if
every step keeps it. -/
theorem run_history {P : List Action → State → Prop}
    (hstep : ∀ taken s action s', P taken s → step s action = some s' →
      P (taken ++ [action]) s')
    {taken : List Action} {s t : State} {actions : List Action} (h : P taken s)
    (hrun : run step s actions = some t) :
  P (taken ++ actions) t
  := by
  induction actions generalizing s taken with
  | nil =>
      rw [run_nil, Option.some.injEq] at hrun
      rw [List.append_nil, ← hrun]
      exact h
  | cons action actions ih =>
      obtain ⟨s', hs', hrun⟩ := run_cons_eq_some.mp hrun
      rw [List.append_cons]
      exact ih (hstep taken s action s' h hs') hrun

/-- A property of states holds after every run, if every step keeps it. -/
theorem run_invariant {P : State → Prop}
    (hstep : ∀ s action s', P s → step s action = some s' → P s')
    {s t : State} {actions : List Action} (h : P s) (hrun : run step s actions = some t) :
  P t
  := by
  induction actions generalizing s with
  | nil =>
      rw [run_nil, Option.some.injEq] at hrun
      rw [← hrun]
      exact h
  | cons action actions ih =>
      obtain ⟨s', hs', hrun⟩ := run_cons_eq_some.mp hrun
      exact ih (hstep s action s' h hs') hrun

/-- Two systems that are given actions side by side stay related, or stop at the same action, if
single steps do. -/
theorem run_rel {State' : Type*} {Action' : Type*} {step' : State' → Action' → Option State'}
    {R : State → State' → Prop} {A : Action → Action' → Prop}
    (hstep : ∀ s s' action action', R s s' → A action action' →
      Option.Rel R (step s action) (step' s' action'))
    {s : State} {s' : State'} {actions : List Action} {actions' : List Action'} (h : R s s')
    (hactions : List.Forall₂ A actions actions') :
  Option.Rel R (run step s actions) (run step' s' actions')
  := by
  induction hactions generalizing s s' with
  | nil => apply Option.Rel.some h
  | @cons action action' _ _ haction _ ih =>
      have hnext := hstep s s' action action' h haction
      rw [run, run]
      generalize step s action = next at hnext ⊢
      generalize step' s' action' = next' at hnext ⊢
      cases hnext with
      | none => apply Option.Rel.none
      | some hnext => apply ih hnext

/-! ### Properties of the steps of a run -/

/-- A property of a state and the action taken in it holds at every step of a run. -/
def Always (step : State → Action → Option State) (P : State → Action → Prop) (s : State)
    (actions : List Action) : Prop :=
  ∀ before action after, actions = before ++ action :: after →
    ∀ s', run step s before = some s' → P s' action

/-- Two properties of steps that agree wherever an invariant holds are true of the same
runs. -/
theorem always_iff {P Q : State → Action → Prop} {I : State → Prop}
    (hstep : ∀ s action s', I s → step s action = some s' → I s')
    (hiff : ∀ s action, I s → (P s action ↔ Q s action)) {s : State} (hs : I s)
    {actions : List Action} :
  Always step P s actions ↔ Always step Q s actions
  := by
  constructor
  · intro h before action after hsplit s' hrun
    apply (hiff s' action (run_invariant hstep hs hrun)).mp
    exact h before action after hsplit s' hrun
  · intro h before action after hsplit s' hrun
    apply (hiff s' action (run_invariant hstep hs hrun)).mpr
    exact h before action after hsplit s' hrun

/-- A property of the steps of a run is one of its first step and of the steps after it. -/
theorem always_cons {P : State → Action → Prop} {s s' : State} {action : Action}
    {actions : List Action} (hstep : step s action = some s')
    (h : Always step P s (action :: actions)) :
  P s action ∧ Always step P s' actions
  := by
  constructor
  · exact h [] action actions rfl s rfl
  · intro before next after hsplit t hrun
    apply h (action :: before) next after
    · rw [hsplit, List.cons_append]
    · apply run_cons_eq_some.mpr
      exact ⟨s', hstep, hrun⟩

/-- A property of the steps of a run is one of the steps of its beginnings. -/
theorem always_prefix {P : State → Action → Prop} {s : State} {first second : List Action}
    (h : Always step P s (first ++ second)) :
  Always step P s first
  := by
  intro before action after hsplit s' hrun
  apply h before action (after ++ second) _ s' hrun
  rw [hsplit, List.append_assoc, List.cons_append]

/-- A property of the steps of a run is one of the steps that are left after a beginning. -/
theorem always_suffix {P : State → Action → Prop} {s t : State} {first second : List Action}
    (h : Always step P s (first ++ second)) (hrun : run step s first = some t) :
  Always step P t second
  := by
  intro before action after hsplit s' hbefore
  apply h (first ++ before) action after
  · rw [hsplit, List.append_assoc]
  · apply run_append_eq_some.mpr
    exact ⟨t, hrun, hbefore⟩

/-- Two properties that each hold at every step hold at every step together. -/
theorem always_and {P Q : State → Action → Prop} {s : State} {actions : List Action}
    (hP : Always step P s actions) (hQ : Always step Q s actions) :
  Always step (fun s action => P s action ∧ Q s action) s actions
  := fun before action after hsplit s' hrun =>
    ⟨hP before action after hsplit s' hrun, hQ before action after hsplit s' hrun⟩

/-- A property of actions holds at every step that takes one of them. -/
theorem always_of_forall_mem {P : Action → Prop} {s : State} {actions : List Action}
    (h : ∀ action ∈ actions, P action) :
  Always step (fun _ action => P action) s actions
  := by
  intro before action after hsplit s' hrun
  apply h
  rw [hsplit]
  exact List.mem_append_right _ List.mem_cons_self

/-- A property holds at every step of a run of nothing. -/
theorem always_nil {P : State → Action → Prop} {s : State} :
  Always step P s []
  := by
  intro before action after hsplit
  cases before <;> cases hsplit

theorem always_cons_of_none {P : State → Action → Prop} {s : State} {action : Action}
    {actions : List Action} (hstep : step s action = none) :
  Always step P s (action :: actions) ↔ P s action
  := by
  constructor
  · intro h
    apply h [] action actions rfl s rfl
  · intro h before next after hsplit t hrun
    cases before with
    | nil =>
        cases hsplit
        cases hrun
        apply h
    | cons first before =>
        cases hsplit
        obtain ⟨s', hs', -⟩ := run_cons_eq_some.mp hrun
        cases hstep.symm.trans hs'

theorem always_cons_of_some {P : State → Action → Prop} {s s' : State} {action : Action}
    {actions : List Action} (hstep : step s action = some s') :
  Always step P s (action :: actions) ↔ P s action ∧ Always step P s' actions
  := by
  constructor
  · intro h
    apply always_cons hstep h
  · rintro ⟨hfirst, hrest⟩ before next after hsplit t hrun
    cases before with
    | nil =>
        cases hsplit
        cases hrun
        apply hfirst
    | cons first before =>
        cases hsplit
        obtain ⟨s₁, hs₁, hrun⟩ := run_cons_eq_some.mp hrun
        cases hstep.symm.trans hs₁
        apply hrest before next after rfl t hrun

/-- Whether a decidable property holds at every step can be found out by running. -/
instance decidableAlways {P : State → Action → Prop} [∀ s action, Decidable (P s action)] :
    ∀ (s : State) (actions : List Action), Decidable (Always step P s actions)
  | _, [] => .isTrue always_nil
  | s, action :: actions =>
    match hstep : step s action with
    | none => decidable_of_iff (P s action) (always_cons_of_none hstep).symm
    | some s' =>
      have : Decidable (Always step P s' actions) := decidableAlways s' actions
      decidable_of_iff (P s action ∧ Always step P s' actions) (always_cons_of_some hstep).symm

/-- A property of states holds after every run whose steps all meet a condition, if every step
that meets it keeps the property. -/
theorem run_invariant_of_always {P : State → Prop} {Q : State → Action → Prop}
    (hstep : ∀ s action s', P s → Q s action → step s action = some s' → P s')
    {s t : State} {actions : List Action} (h : P s) (halways : Always step Q s actions)
    (hrun : run step s actions = some t) :
  P t
  := by
  induction actions generalizing s with
  | nil =>
      rw [run_nil, Option.some.injEq] at hrun
      rw [← hrun]
      exact h
  | cons action actions ih =>
      obtain ⟨s', hs', hrun⟩ := run_cons_eq_some.mp hrun
      obtain ⟨hfirst, hrest⟩ := always_cons hs' halways
      apply ih (hstep s action s' h hfirst hs') hrest hrun

/-- A property of states holds wherever a run comes by, its start and its end included. -/
def Throughout (step : State → Action → Option State) (P : State → Prop) (s : State)
    (actions : List Action) : Prop :=
  ∀ before after, actions = before ++ after → ∀ s', run step s before = some s' → P s'

/-- What holds throughout a run holds at its first state, and throughout what is left after its
first step. -/
theorem throughout_cons {P : State → Prop} {s s' : State} {action : Action}
    {actions : List Action} (hstep : step s action = some s')
    (h : Throughout step P s (action :: actions)) :
  P s ∧ Throughout step P s' actions
  := by
  constructor
  · apply h [] (action :: actions) rfl s rfl
  · intro before after hsplit t hrun
    apply h (action :: before) after
    · rw [hsplit, List.cons_append]
    · apply run_cons_eq_some.mpr
      exact ⟨s', hstep, hrun⟩

theorem throughout_nil {P : State → Prop} {s : State} :
  Throughout step P s [] ↔ P s
  := by
  constructor
  · intro h
    apply h [] [] rfl s rfl
  · intro h before after hsplit s' hrun
    obtain ⟨rfl, -⟩ := List.append_eq_nil_iff.mp hsplit.symm
    cases hrun
    apply h

theorem throughout_cons_of_none {P : State → Prop} {s : State} {action : Action}
    {actions : List Action} (hstep : step s action = none) :
  Throughout step P s (action :: actions) ↔ P s
  := by
  constructor
  · intro h
    apply h [] (action :: actions) rfl s rfl
  · intro h before after hsplit t hrun
    cases before with
    | nil =>
        cases hrun
        apply h
    | cons first before =>
        cases hsplit
        obtain ⟨s', hs', -⟩ := run_cons_eq_some.mp hrun
        cases hstep.symm.trans hs'

theorem throughout_cons_of_some {P : State → Prop} {s s' : State} {action : Action}
    {actions : List Action} (hstep : step s action = some s') :
  Throughout step P s (action :: actions) ↔ P s ∧ Throughout step P s' actions
  := by
  constructor
  · intro h
    apply throughout_cons hstep h
  · rintro ⟨hfirst, hrest⟩ before after hsplit t hrun
    cases before with
    | nil =>
        cases hrun
        apply hfirst
    | cons first before =>
        cases hsplit
        obtain ⟨s₁, hs₁, hrun⟩ := run_cons_eq_some.mp hrun
        cases hstep.symm.trans hs₁
        apply hrest before after rfl t hrun

/-- Whether a decidable property holds throughout a run can be found out by running. -/
instance decidableThroughout {P : State → Prop} [∀ s, Decidable (P s)] :
    ∀ (s : State) (actions : List Action), Decidable (Throughout step P s actions)
  | s, [] => decidable_of_iff (P s) throughout_nil.symm
  | s, action :: actions =>
    match hstep : step s action with
    | none => decidable_of_iff (P s) (throughout_cons_of_none hstep).symm
    | some s' =>
      have : Decidable (Throughout step P s' actions) := decidableThroughout s' actions
      decidable_of_iff (P s ∧ Throughout step P s' actions) (throughout_cons_of_some hstep).symm

/-- A property of states holds at the end of a run that has another throughout, if every step
between states that have the other keeps it. -/
theorem run_invariant_of_throughout {P Q : State → Prop}
    (hstep : ∀ s action s', P s → Q s → step s action = some s' → Q s' → P s')
    {s t : State} {actions : List Action} (h : P s) (hthroughout : Throughout step Q s actions)
    (hrun : run step s actions = some t) :
  P t
  := by
  induction actions generalizing s with
  | nil =>
      rw [run_nil, Option.some.injEq] at hrun
      rw [← hrun]
      exact h
  | cons action actions ih =>
      obtain ⟨s', hs', hrun⟩ := run_cons_eq_some.mp hrun
      obtain ⟨hfirst, hrest⟩ := throughout_cons hs' hthroughout
      apply ih _ hrest hrun
      apply hstep s action s' h hfirst hs'
      apply hrest [] actions rfl s' rfl

/-- A property that a run loses is lost by one of its steps. -/
theorem exists_step_of_lost {P : State → Prop} {s t : State} {actions : List Action} (h : P s)
    (hrun : run step s actions = some t) (hlost : ¬P t) :
  ∃ before action after u v, actions = before ++ action :: after ∧ run step s before = some u
    ∧ step u action = some v ∧ P u ∧ ¬P v
  := by
  induction actions generalizing s with
  | nil =>
      rw [run_nil, Option.some.injEq] at hrun
      rw [← hrun] at hlost
      exact absurd h hlost
  | cons action actions ih =>
      obtain ⟨s', hs', hrun⟩ := run_cons_eq_some.mp hrun
      by_cases hkept : P s'
      · obtain ⟨before, next, after, u, v, hsplit, hbefore, hnext, hu, hv⟩ := ih hkept hrun
        use action :: before, next, after, u, v
        rw [hsplit]
        exact ⟨rfl, run_cons_eq_some.mpr ⟨s', hs', hbefore⟩, hnext, hu, hv⟩
      · exact ⟨[], action, actions, s, s', rfl, rfl, hs', h, hkept⟩

end TransitionSystem
