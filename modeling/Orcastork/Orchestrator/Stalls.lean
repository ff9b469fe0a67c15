import Orcastork.Orchestrator.Triggers
import Orcastork.Scheduling.Quiescence

/-!
# The stall warning

When nothing runs and nothing is due, the loop asks of the operators that have not run which of them
could still become ready, and warns of those. An operator of the plan that is ready is launched, or
has a retry to wait for; so the loop is done only where none is ready, and then none could become so
(`stall_unreachable`).
-/

namespace Orcastork

namespace GatherServices

variable {P C O : Type} [DecidableEq P] [DecidableEq C] (services : GatherServices P C O)

omit [DecidableEq P] [DecidableEq C] in
/-- An operator is neither running nor tripped, and has not run. -/
def isPending (memory : OperatorMemory) (operator : O) : Bool :=
  (memory.running.get? (services.operatorId operator)).isNone
    && !memory.breaker.isTripped (services.operatorId operator)
    && !services.hasRun memory operator

variable {services} {mirror : SessionStateMirror} {memory : OperatorMemory}
  {view : DataPointView} {available : Finset CapabilityId} {now : Monotonic}
variable {plan plan' : GatherPlan O} {operator : O}

/-! ### The operators that have not run -/

theorem notYetRun_dueBy (due : Option Monotonic) :
  (plan.dueBy due).notYetRun = plan.notYetRun
  := by
  cases due with
  | none => rfl
  | some due => rfl

omit [DecidableEq P] [DecidableEq C] in
theorem notYetRun_planLaunch {isRetry : Bool}
    (h : services.planLaunch mirror memory available plan operator isRetry = .ok plan') :
  plan'.notYetRun = plan.notYetRun
  := by
  obtain ⟨delta, -, rfl⟩ := planLaunch_eq_ok h
  rfl

omit [DecidableEq C] in
/-- A rerun is of an operator that has run. -/
theorem notYetRun_planRerun
    (h : services.planRerun mirror memory view available now plan operator = .ok plan') :
  plan'.notYetRun = plan.notYetRun
  := by
  have harm : (services.armWindow now plan operator).notYetRun = plan.notYetRun := by
    rw [armWindow]
    split
    · rfl
    · rfl
  rw [planRerun] at h
  split at h
  · cases h
    rfl
  · split at h
    · cases h
    · split at h
      · cases h
        rfl
      · cases h
        rw [planWindow]
        split
        · apply harm
        · split
          · apply harm
          · rw [notYetRun_dueBy, harm]

/-- An operator is listed if it has not run. -/
theorem notYetRun_planOperator
    (h : services.planOperator mirror memory view available now plan operator = .ok plan') :
  plan'.notYetRun
    = plan.notYetRun ++ if services.isPending memory operator then [operator] else []
  := by
  rw [planOperator] at h
  split at h
  · rename_i hruns
    cases h
    rw [isPending, Option.isNone_eq_false_iff.mpr hruns]
    apply (List.append_nil _).symm
  · rename_i hidle
    rw [Option.not_isSome_iff_eq_none, ← Option.isNone_iff_eq_none] at hidle
    split at h
    · rename_i htripped
      cases h
      rw [isPending, hidle, htripped]
      apply (List.append_nil _).symm
    · rename_i huntripped
      rw [Bool.not_eq_true] at huntripped
      rw [planIdle] at h
      generalize hpending : (if services.hasRun memory operator = true then plan
        else plan.pending operator) = pending at h
      have hlisted : pending.notYetRun
          = plan.notYetRun ++ if services.isPending memory operator then [operator] else [] := by
        rw [← hpending, isPending, hidle, huntripped]
        cases services.hasRun memory operator with
        | true => apply (List.append_nil _).symm
        | false => rfl
      rw [← hlisted]
      split at h
      · cases h
        rfl
      · split at h
        · split at h
          · apply notYetRun_planLaunch h
          · cases h
            apply notYetRun_dueBy
        · split at h
          · apply notYetRun_planLaunch h
          · apply notYetRun_planRerun h

theorem notYetRun_planAll {operators : List O}
    (h : services.planAll mirror memory view available now operators plan = .ok plan') :
  plan'.notYetRun = plan.notYetRun ++ operators.filter (services.isPending memory)
  := by
  induction operators generalizing plan with
  | nil =>
      cases h
      apply (List.append_nil _).symm
  | cons operator operators ih =>
      rw [planAll] at h
      split at h
      · cases h
      · rename_i next hnext
        rw [ih h, notYetRun_planOperator hnext, List.append_assoc, List.filter_cons]
        split
        · rfl
        · rfl

/-- A plan lists the operators that have not run. -/
theorem notYetRun_plan (h : services.plan mirror memory view available now = .ok plan) :
  plan.notYetRun = services.gathering.filter (services.isPending memory)
  := by
  rw [notYetRun_planAll h, List.nil_append]

/-- An operator that has not run and is ready is due, or its retry is awaited. -/
theorem due_or_awaited_of_pending (hpending : services.isPending memory operator = true)
    (hready : services.declarations.isReady operator (services.presentTypes view)
      (services.availableTypes available) = true) :
  services.isDue mirror memory view available now operator = true
    ∨ services.isAwaited mirror memory view available now operator = true
  := by
  rw [isPending, Bool.and_eq_true, Bool.not_eq_true'] at hpending
  have hopen : services.isOpen memory view available operator = true := by
    rw [isOpen, hpending.1, hready]
    rfl
  rw [isDue, isAwaited, hopen, hpending.2, Bool.true_and, Bool.true_and]
  cases memory.retries.isScheduled (services.operatorId operator) with
  | false =>
      left
      rfl
  | true =>
      rw [if_pos rfl, if_pos rfl]
      cases memory.retries.isDue (services.operatorId operator) now with
      | true =>
          left
          rfl
      | false =>
          right
          rfl

end GatherServices

/-- In any state of a gather, a step by which the loop is done is a pass whose plan lists the
operators that have not run, and none of them could still become ready: the loop over them finds
none, and the least fixed point is empty. -/
theorem stall_unreachable {P C O : Type} [DecidableEq P] [DecidableEq C] [DecidableEq O]
    {services : GatherServices P C O} {gather gather' : Gather O} {action : GatherAction}
    (hstep : gather.step services action = some gather')
    (hbefore : gather.phase ≠ .draining .quiescent) (hdone : gather'.phase = .draining .quiescent) :
  ∃ available view plan, action = .refresh available none
    ∧ gather.state.mirror.snapshot gather.state.mirror.sessionId = .ok view
    ∧ services.plan gather.state.mirror gather.memory view available gather.now = .ok plan
    ∧ plan.notYetRun = services.gathering.filter (services.isPending gather.memory)
    ∧ services.declarations.reachablePending plan.notYetRun (services.presentTypes view)
        (services.availableTypes available) = ∅
    ∧ OrderHom.lfp (services.declarations.producibility plan.notYetRun
        (services.presentTypes view) (services.availableTypes available)) = ∅
  := by
  obtain ⟨available, view, observed, plan, haction, -, hview, hplan, hquiet, -⟩ :=
    Gather.passed_of_done (Gather.steps_of_step hstep) hbefore hdone
  obtain ⟨-, -, -, hlate⟩ := Gather.settled_of_done hplan hquiet
  have hlisted := GatherServices.notYetRun_plan hplan
  have hempty : services.declarations.reachablePending plan.notYetRun (services.presentTypes view)
      (services.availableTypes available) = ∅ := by
    rw [Declarations.reachablePending_eq_empty_iff, hlisted]
    intro operator hmem
    obtain ⟨hgathers, hpending⟩ := List.mem_filter.mp hmem
    obtain ⟨hdue, hawaited⟩ := hlate operator hgathers
    by_contra hready
    rw [Bool.not_eq_false] at hready
    rcases GatherServices.due_or_awaited_of_pending hpending hready with h | h
    · cases hdue.symm.trans h
    · cases hawaited.symm.trans h
  use available, view, plan, haction, hview, hplan, hlisted, hempty
  rw [← Declarations.reachablePending_eq_lfp, hempty, Finset.coe_empty]

/-- A reader that waits for a note. -/
def waitingGather : GatherServices DataPointType CapabilityId OperatorId :=
  { textGather ["reader"] none with
    flow := { (textGather ["reader"] none).flow with dependsOn := fun _ => {"note"} } }

/-- Without a note the loop is done, with the reader listed and no warning. -/
theorem stall_unreachable_waiting :
  ∃ gather gather' : Gather OperatorId,
    TransitionSystem.run (Gather.step waitingGather)
        (.start waitingGather 1 .empty 0 (Recording.initial "s").state)
        [.begin' 100, .renew none, .inboxDone none]
      = some gather
    ∧ gather.step waitingGather (.refresh ∅ none) = some gather'
    ∧ gather'.phase = .draining .quiescent
    ∧ ∃ available view plan, GatherAction.refresh ∅ none = .refresh available none
      ∧ gather.state.mirror.snapshot gather.state.mirror.sessionId = .ok view
      ∧ waitingGather.plan gather.state.mirror gather.memory view available gather.now = .ok plan
      ∧ plan.notYetRun = ["reader"]
      ∧ waitingGather.declarations.reachablePending plan.notYetRun
          (waitingGather.presentTypes view) (waitingGather.availableTypes available) = ∅
  := by
  obtain ⟨gather, hrun, gather', hnext, hphase, hdone, hpending⟩ :
      ∃ gather, TransitionSystem.run (Gather.step waitingGather)
          (.start waitingGather 1 .empty 0 (Recording.initial "s").state)
          [.begin' 100, .renew none, .inboxDone none] = some gather
        ∧ ∃ gather', gather.step waitingGather (.refresh ∅ none) = some gather'
        ∧ gather.phase = .refreshing ∧ gather'.phase = .draining .quiescent
        ∧ waitingGather.gathering.filter (waitingGather.isPending gather.memory) = ["reader"] :=
    ⟨_, rfl, _, rfl, rfl, rfl, rfl⟩
  use gather, gather', hrun, hnext, hdone
  obtain ⟨available, view, plan, haction, hview, hplan, hlisted, hempty, -⟩ :=
    stall_unreachable hnext (by rw [hphase]; nofun) hdone
  use available, view, plan, haction, hview, hplan
  rw [hlisted, hpending] at *
  use rfl

end Orcastork
