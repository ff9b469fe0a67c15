import Orcastork.Orchestrator.Plan

/-!
# The operators that are due

What a plan comes to, operator by operator: it launches those that are due, in the order in which
they are listed (`runnable_eq_filter`), and has something to wait for exactly if an operator is
awaited (`soonestDue_eq_none_iff`). Whether an operator is due does not depend on the operators
planned before it, as the windows they arm are their own.

Both presuppose that the operator is ready: a retry that is armed is neither due nor awaited as long
as its operator is not ready.
-/

namespace Orcastork

namespace GatherServices

variable {P C O : Type} [DecidableEq P] [DecidableEq C] (services : GatherServices P C O)
variable (mirror : SessionStateMirror) (memory : OperatorMemory) (view : DataPointView)
  (available : Finset CapabilityId) (now : Monotonic)

/-- Some windows, the one of an operator armed unless it was. -/
def armedWindows (debounce : DebounceController) (operator : O) : DebounceController :=
  if debounce.isScheduled (services.operatorId operator) then
    debounce
  else
    debounce.schedule (services.operatorId operator) now (services.debounce operator)

/-- The window of an operator is over, armed now unless it was. -/
def windowDue (debounce : DebounceController) (operator : O) : Bool :=
  (services.armedWindows now debounce operator).isDue (services.operatorId operator) now

/-- An operator has something new to run again for. -/
def hasNewData (operator : O) : Bool :=
  (services.flow.policy operator).rerunOnNewData
    && match services.deltaFor mirror memory available operator with
      | .error _ => false
      | .ok delta => services.flow.rerunEligible services.classes operator (services.newData delta)

/-- An operator is ready, and neither running nor tripped. -/
def isOpen (operator : O) : Bool :=
  (memory.running.get? (services.operatorId operator)).isNone
    && !memory.breaker.isTripped (services.operatorId operator)
    && services.declarations.isReady operator (services.presentTypes view)
      (services.availableTypes available)

/-- An operator is due to run: its armed retry, its first run, or its rerun. -/
def isDue (operator : O) : Bool :=
  services.isOpen memory view available operator
    && if memory.retries.isScheduled (services.operatorId operator) then
        memory.retries.isDue (services.operatorId operator) now
      else
        !services.hasRun memory operator
          || services.hasNewData mirror memory available operator
            && services.windowDue now memory.debounce operator

/-- An operator has a retry or a rerun to come that keeps the gather open. -/
def isAwaited (operator : O) : Bool :=
  services.isOpen memory view available operator
    && if memory.retries.isScheduled (services.operatorId operator) then
        !memory.retries.isDue (services.operatorId operator) now
      else
        services.hasRun memory operator && services.hasNewData mirror memory available operator
          && !services.windowDue now memory.debounce operator
          && !windowDefersToFinalize (services.flow.aggregator operator)
            (services.completionSatisfied view)

variable {services mirror memory view available now} {plan plan' : GatherPlan O} {operator : O}

/-! ### Windows -/

omit [DecidableEq P] [DecidableEq C] in
theorem isScheduled_armedWindows (debounce : DebounceController) :
  (services.armedWindows now debounce operator).isScheduled (services.operatorId operator) = true
  := by
  rw [armedWindows]
  split
  · assumption
  · rw [DebounceController.isScheduled_schedule, decide_eq_true rfl, Bool.true_or]

omit [DecidableEq P] [DecidableEq C] in
/-- Whether a window is due can be read off the windows as they are. -/
theorem windowDue_eq (debounce : DebounceController) :
  services.windowDue now debounce operator
    = match debounce.dueAt.get? (services.operatorId operator) with
      | none => decide (now + (services.debounce operator).getD 0 ≤ now)
      | some due => decide (due ≤ now)
  := by
  rw [windowDue, armedWindows, DebounceController.isScheduled]
  cases hget : debounce.dueAt.get? (services.operatorId operator) with
  | none =>
      rw [if_neg (by intro h; cases h), DebounceController.isDue, DebounceController.schedule, Dict.get?_set_self]
  | some due => rw [if_pos Option.isSome_some, DebounceController.isDue, hget]

omit [DecidableEq P] [DecidableEq C] in
/-- Arming the window of an operator leaves every window as due as it was. -/
theorem windowDue_armedWindows (debounce : DebounceController) (other : O) :
  services.windowDue now (services.armedWindows now debounce operator) other
    = services.windowDue now debounce other
  := by
  by_cases hsame : services.operatorId operator = services.operatorId other
  · obtain rfl := services.classes.operatorId_injective hsame
    rw [windowDue, armedWindows, if_pos (isScheduled_armedWindows debounce)]
    rfl
  · have hget : (services.armedWindows now debounce operator).dueAt.get?
        (services.operatorId other) = debounce.dueAt.get? (services.operatorId other) := by
      rw [armedWindows]
      split
      · rfl
      · exact Dict.get?_set_of_ne _ hsame _
    rw [windowDue_eq, hget, windowDue_eq]

omit [DecidableEq P] [DecidableEq C] in
theorem debounce_armWindow :
  (services.armWindow now plan operator).debounce
    = services.armedWindows now plan.debounce operator
  := by
  rw [armWindow, armedWindows]
  split
  · rfl
  · rfl

/-- The window of each operator is due as it was before the plan. -/
def WindowsKept (services : GatherServices P C O) (now : Monotonic) (memory : OperatorMemory)
    (plan : GatherPlan O) : Prop :=
  ∀ operator, services.windowDue now plan.debounce operator
    = services.windowDue now memory.debounce operator

/-! ### One operator -/

/-- What an operator adds to the plan. -/
structure Planned (services : GatherServices P C O) (now : Monotonic) (memory : OperatorMemory)
    (due awaited : Bool) (operator : O) (plan plan' : GatherPlan O) : Prop where
  runnable : plan'.runnable.map Runnable.operator
    = plan.runnable.map Runnable.operator ++ if due then [operator] else []
  soonestDue : plan'.soonestDue = none ↔ plan.soonestDue = none ∧ awaited = false
  windows : services.WindowsKept now memory plan'

omit [DecidableEq P] [DecidableEq C] in
/-- An operator that adds nothing. -/
theorem Planned.none (h : services.WindowsKept now memory plan) :
  services.Planned now memory false false operator plan plan
  := by
  constructor
  · exact (List.append_nil _).symm
  · rw [and_iff_left rfl]
  · exact h

omit [DecidableEq P] [DecidableEq C] in
/-- An operator that is launched. -/
theorem Planned.launched {isRetry : Bool} (h : services.WindowsKept now memory plan)
    (hplan : services.planLaunch mirror memory available plan operator isRetry = .ok plan') :
  services.Planned now memory true false operator plan plan'
  := by
  obtain ⟨delta, -, rfl⟩ := planLaunch_eq_ok hplan
  constructor
  · rw [GatherPlan.launching, List.map_append]
    rfl
  · rw [and_iff_left rfl]
    rfl
  · exact h

theorem soonestDue_dueBy (plan : GatherPlan O) {dueAt : Option Monotonic}
    (h : dueAt.isSome = true) :
  (plan.dueBy dueAt).soonestDue ≠ Option.none ∧ (plan.dueBy dueAt).runnable = plan.runnable
    ∧ (plan.dueBy dueAt).debounce = plan.debounce
  := by
  cases dueAt with
  | none => cases h
  | some dueAt => exact ⟨Option.some_ne_none _, rfl, rfl⟩

omit [DecidableEq P] [DecidableEq C] in
/-- An operator that is waited for. -/
theorem Planned.waits {dueAt : Option Monotonic} (h : services.WindowsKept now memory plan)
    (hdue : dueAt.isSome = true) :
  services.Planned now memory false true operator plan (plan.dueBy dueAt)
  := by
  obtain ⟨hsoonest, hrunnable, hdebounce⟩ := soonestDue_dueBy plan hdue
  constructor
  · rw [hrunnable]
    exact (List.append_nil _).symm
  · exact iff_of_false hsoonest (fun h => Bool.noConfusion h.2)
  · intro other
    rw [hdebounce]
    exact h other

omit [DecidableEq C] in
/-- The rerun of an operator: launched if its window is over, and waited for if the window keeps the
gather open. -/
theorem planned_planRerun (h : services.WindowsKept now memory plan)
    (hplan : services.planRerun mirror memory view available now plan operator = .ok plan') :
  services.Planned now memory
    (services.hasNewData mirror memory available operator
      && services.windowDue now memory.debounce operator)
    (services.hasNewData mirror memory available operator
      && !services.windowDue now memory.debounce operator
      && !windowDefersToFinalize (services.flow.aggregator operator)
        (services.completionSatisfied view))
    operator plan plan'
  := by
  rw [planRerun] at hplan
  split at hplan
  · rename_i hnever
    rw [Bool.not_eq_true'] at hnever
    have hnew : services.hasNewData mirror memory available operator = false := by
      rw [hasNewData, hnever, Bool.false_and]
    cases hplan
    rw [hnew]
    exact Planned.none h
  · rename_i hrerun
    rw [Bool.not_eq_true', Bool.not_eq_false] at hrerun
    split at hplan
    · cases hplan
    · rename_i delta hdelta
      have hnew : services.hasNewData mirror memory available operator
          = services.flow.rerunEligible services.classes operator (services.newData delta) := by
        rw [hasNewData, hrerun, hdelta, Bool.true_and]
      rw [hnew]
      split at hplan
      · rename_i hineligible
        rw [Bool.not_eq_true'] at hineligible
        cases hplan
        rw [hineligible]
        exact Planned.none h
      · rename_i heligible
        rw [Bool.not_eq_true', Bool.not_eq_false] at heligible
        rw [heligible, Bool.true_and, Bool.true_and]
        cases hplan
        have hkept : services.WindowsKept now memory (services.armWindow now plan operator) := by
          intro other
          rw [debounce_armWindow, windowDue_armedWindows]
          exact h other
        have hdue : (services.armWindow now plan operator).debounce.isDue
            (services.operatorId operator) now = services.windowDue now memory.debounce operator := by
          rw [debounce_armWindow, ← h operator]
          rfl
        have hsoonest : (services.armWindow now plan operator).soonestDue = plan.soonestDue := by
          rw [armWindow]
          split
          · rfl
          · rfl
        have hsame : ∀ due awaited plan',
            services.Planned now memory due awaited operator (services.armWindow now plan operator)
              plan' → services.Planned now memory due awaited operator plan plan' := by
          intro due awaited plan' hplanned
          obtain ⟨hrunnable, hsoonest', hwindows⟩ := hplanned
          rw [runnable_armWindow] at hrunnable
          rw [hsoonest] at hsoonest'
          exact ⟨hrunnable, hsoonest', hwindows⟩
        apply hsame
        rw [planWindow, hdue]
        cases services.windowDue now memory.debounce operator with
        | true =>
            rw [if_pos rfl, Bool.not_true, Bool.false_and]
            constructor
            · rw [GatherPlan.launching, List.map_append]
              rfl
            · rw [and_iff_left rfl]
              rfl
            · exact hkept
        | false =>
            rw [if_neg Bool.false_ne_true]
            split
            · rename_i hdefers
              rw [hdefers]
              exact Planned.none hkept
            · rename_i hopen
              rw [Bool.not_eq_true] at hopen
              rw [hopen]
              apply Planned.waits hkept
              rw [debounce_armWindow]
              exact isScheduled_armedWindows plan.debounce

/-- What an operator of a plan adds to it. -/
theorem planned_planOperator (h : services.WindowsKept now memory plan)
    (hplan : services.planOperator mirror memory view available now plan operator = .ok plan') :
  services.Planned now memory (services.isDue mirror memory view available now operator)
    (services.isAwaited mirror memory view available now operator) operator plan plan'
  := by
  rw [planOperator] at hplan
  rw [isDue, isAwaited, isOpen]
  split at hplan
  · rename_i hrunning
    cases hplan
    rw [← Option.not_isSome, hrunning]
    exact Planned.none h
  · rename_i hidle
    rw [Bool.not_eq_true] at hidle
    rw [← Option.not_isSome, hidle]
    split at hplan
    · rename_i htripped
      cases hplan
      rw [htripped]
      exact Planned.none h
    · rename_i huntripped
      rw [Bool.not_eq_true] at huntripped
      rw [huntripped]
      rw [planIdle] at hplan
      generalize hpending : (if services.hasRun memory operator = true then plan
        else plan.pending operator) = pending at hplan
      have hsame : pending.runnable = plan.runnable ∧ pending.soonestDue = plan.soonestDue
          ∧ pending.debounce = plan.debounce := by
        rw [← hpending]
        split
        · exact ⟨rfl, rfl, rfl⟩
        · exact ⟨rfl, rfl, rfl⟩
      obtain ⟨hrunnable, hsoonest, hdebounce⟩ := hsame
      have hkept : services.WindowsKept now memory pending := by
        intro other
        rw [hdebounce]
        exact h other
      have hplanned : ∀ {due awaited}, services.Planned now memory due awaited operator pending plan' →
          services.Planned now memory due awaited operator plan plan' := by
        intro due awaited hplanned
        obtain ⟨hrunnable', hsoonest', hwindows⟩ := hplanned
        rw [hrunnable] at hrunnable'
        rw [hsoonest] at hsoonest'
        exact ⟨hrunnable', hsoonest', hwindows⟩
      apply hplanned
      split at hplan
      · rename_i hunready
        rw [Bool.not_eq_true'] at hunready
        cases hplan
        rw [hunready]
        exact Planned.none hkept
      · rename_i hready
        rw [Bool.not_eq_true', Bool.not_eq_false] at hready
        rw [hready]
        simp only [Bool.not_false, Bool.true_and]
        split at hplan
        · rename_i hretry
          rw [if_pos hretry, if_pos hretry]
          split at hplan
          · rename_i hdue
            rw [hdue]
            exact Planned.launched hkept hplan
          · rename_i hdue
            rw [Bool.not_eq_true] at hdue
            cases hplan
            rw [hdue]
            exact Planned.waits hkept hretry
        · rename_i hretry
          rw [if_neg hretry, if_neg hretry]
          split at hplan
          · rename_i hfirst
            rw [Bool.not_eq_true'] at hfirst
            rw [hfirst]
            exact Planned.launched hkept hplan
          · rename_i hran
            rw [Bool.not_eq_true', Bool.not_eq_false] at hran
            rw [hran]
            simp only [Bool.not_true, Bool.false_or, Bool.true_and]
            exact planned_planRerun hkept hplan

/-! ### The plan -/

theorem planned_planAll {operators : List O} (h : services.WindowsKept now memory plan)
    (hplan : services.planAll mirror memory view available now operators plan = .ok plan') :
  plan'.runnable.map Runnable.operator
      = plan.runnable.map Runnable.operator
        ++ operators.filter (services.isDue mirror memory view available now)
    ∧ (plan'.soonestDue = none ↔ plan.soonestDue = none
      ∧ ∀ operator ∈ operators,
        services.isAwaited mirror memory view available now operator = false)
  := by
  induction operators generalizing plan with
  | nil =>
      cases hplan
      rw [List.filter_nil, List.append_nil]
      exact ⟨rfl, (and_iff_left nofun).symm⟩
  | cons operator operators ih =>
      rw [planAll] at hplan
      split at hplan
      · cases hplan
      · rename_i next hnext
        obtain ⟨hrunnable, hsoonest, hwindows⟩ := planned_planOperator h hnext
        obtain ⟨hrunnable', hsoonest'⟩ := ih hwindows hplan
        constructor
        · rw [hrunnable', hrunnable, List.append_assoc, List.filter_cons]
          split
          · rfl
          · rfl
        · rw [hsoonest', hsoonest, List.forall_mem_cons, and_assoc]

/-- A plan launches the operators that are due, in their order. -/
theorem runnable_eq_filter (h : services.plan mirror memory view available now = .ok plan) :
  plan.runnable.map Runnable.operator
    = services.gathering.filter (services.isDue mirror memory view available now)
  := by
  have hplanned := planned_planAll (fun _ => rfl) h
  exact hplanned.1

/-- A plan has something to wait for exactly if an operator is awaited. -/
theorem soonestDue_eq_none_iff (h : services.plan mirror memory view available now = .ok plan) :
  plan.soonestDue = none
    ↔ ∀ operator ∈ services.gathering,
      services.isAwaited mirror memory view available now operator = false
  := by
  have hplanned := planned_planAll (fun _ => rfl) h
  rw [hplanned.2, and_iff_right rfl]

end GatherServices

end Orcastork
