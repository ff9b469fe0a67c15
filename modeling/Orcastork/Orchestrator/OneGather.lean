import Mathlib.Algebra.BigOperators.Group.Finset.Basic
import Mathlib.Algebra.Order.BigOperators.Group.Finset
import Orcastork.Library.FiniteBounds
import Orcastork.Orchestrator.LaunchBudget

/-!
# One gather

A gather from where it began (`Gather.OneGather`), of any orchestrator of a session. How often it has
launched an operator is bounded by what has triggered the operator since (`launchesOf_le`), whatever
the deadline is and however time passes; and by a cap that the breaker has for it
(`launchesOf_le_of_cap`). What has triggered an operator is delivered to the gather, or emitted by its
own runs (`stimuli_le`).
-/

namespace Orcastork

namespace Gather

/-! ### Gathers -/

section Runs

variable {P C O : Type} [DecidableEq P] [DecidableEq C] (services : GatherServices P C O)

/-- A run emits DataPoints that its operator declares. -/
def EmitsDeclared (gather : Gather O) : GatherAction → Prop
  | .emit i emission _ => ∀ task, gather.tasks[i]? = some task →
    services.declarations.emissionDeclared task.operator (services.leafClass emission.leafType)
      = true
  | _ => True

/-- A gather and what it has done since it began: one of an orchestrator with a breaker of some
caps, after any other orchestrators of the session. -/
inductive OneGather (caps : Dict OperatorId ℤ) : List GatherAction → Gather O → Prop where
  | begun {epoch : Epoch} {first : Dict OperatorId ℤ} {now : Monotonic}
      {before : List SuccessionAction} {succession : Succession O} {deadline : Monotonic}
      {gather : Gather O}
      (hrun : TransitionSystem.run (Succession.step services)
          (.initial services epoch first now) before
        = some succession)
      (hcaps : succession.gather.memory.breaker.caps = caps)
      (hbegin : succession.gather.step services (.begin' deadline) = some gather) :
    OneGather caps [] gather
  | step {past : List GatherAction} {gather : Gather O} {action : GatherAction} {gather' : Gather O}
      (h : OneGather caps past gather) (hwithin : ∀ deadline, action ≠ .begin' deadline)
      (hdeclared : EmitsDeclared services gather action)
      (hstep : gather.step services action = some gather') :
    OneGather caps (past ++ [action]) gather'

/-- A gather that has just begun. -/
structure Begun (caps : Dict OperatorId ℤ) (gather : Gather O) : Prop where
  caps : gather.memory.breaker.caps = caps
  running : gather.memory.running = .empty
  retries : gather.memory.retries = .initial
  queue : gather.queue = []
  tasks : gather.tasks = []
  phase : gather.phase = .head

/-- What holds throughout a gather. -/
structure Throughout (gather : Gather O) : Prop where
  kept : ∃ observed, WatermarksKept services gather.phase gather.state.mirror gather.state.store
    gather.memory observed
  retriesWait : RetriesWait services gather.memory

variable {services} {caps : Dict OperatorId ℤ} {past : List GatherAction}
variable {gather gather' : Gather O} {action : GatherAction}

/-- A gather goes on. -/
theorem OneGather.append {actions : List GatherAction} (h : OneGather services caps past gather)
    (hwithin : ∀ action ∈ actions, ∀ deadline, action ≠ .begin' deadline)
    (hdeclared : ∀ action ∈ actions, ∀ gather, EmitsDeclared services gather action)
    (hrun : TransitionSystem.run (Gather.step services) gather actions = some gather') :
  OneGather services caps (past ++ actions) gather'
  := by
  induction actions generalizing past gather with
  | nil =>
      rw [TransitionSystem.run_nil] at hrun
      cases hrun
      rw [List.append_nil]
      exact h
  | cons action actions ih =>
      rw [TransitionSystem.run_cons_eq_some] at hrun
      obtain ⟨next, hnext, hrest⟩ := hrun
      rw [List.forall_mem_cons] at hwithin hdeclared
      have hone := ih (h.step hwithin.1 (hdeclared.1 gather) hnext) hwithin.2 hdeclared.2 hrest
      rw [List.append_assoc] at hone
      exact hone

/-- A gather begins with nothing under way. -/
theorem begun_of_step {observed : Dict OperatorId Revision}
    (h : WatermarksKept services gather.phase gather.state.mirror gather.state.store gather.memory
      observed)
    (hcaps : gather.memory.breaker.caps = caps) {deadline : Monotonic}
    (hstep : gather.step services (.begin' deadline) = some gather') :
  Begun caps gather'
  := by
  have hbegins : gather' = gather.beginGather services deadline := by
    change gather.loopStep services (.begin' deadline) = some gather' at hstep
    rw [loopStep] at hstep
    split at hstep
    · exact (Option.some.inj hstep).symm
    · exact (Option.some.inj hstep).symm
    · exact (Option.some.inj hstep).symm
    · cases hstep
  obtain ⟨primed, hprimed, -⟩ := @InStep.primeAll O gather
    (Paging.inOrder id (gather.loadWatermarks services).values.dedup) gather.state.mirror h.agrees
  rw [hbegins, beginGather]
  simp only [hprimed]
  exact ⟨hcaps, rfl, rfl, rfl, rfl, rfl⟩

/-- Throughout a gather the watermarks are kept, and the armed retries wait. -/
theorem OneGather.throughout (h : OneGather services caps past gather) :
  Throughout services gather
  := by
  induction h with
  | begun hrun hcaps hbegin =>
      have hkept := watermarksKept_run hrun
      constructor
      · exact ⟨_, hkept.step (steps_of_step hbegin)⟩
      · intro operatorId harmed
        rw [(begun_of_step hkept hcaps hbegin).retries] at harmed
        cases harmed
  | step _ _ _ hstep ih =>
      obtain ⟨observed, hkept⟩ := ih.kept
      exact ⟨⟨_, hkept.step (steps_of_step hstep)⟩, RetriesWait.step ih.retriesWait (steps_of_step hstep)⟩

/-- What holds as a gather begins, is kept by what a step does to an operator, and is kept where the
gather is on its way out, holds throughout the gather. -/
theorem OneGather.invariant {I : List GatherAction → Gather O → Prop} {operator : O}
    (hgathers : operator ∈ services.gathering)
    (hbegun : ∀ gather, Begun caps gather → I [] gather)
    (hstep : ∀ past gather action gather', I past gather → ¬gather.Leaving →
      Throughout services gather → Affects services operator gather action gather' →
      I (past ++ [action]) gather')
    (hleaves : ∀ past gather action gather', I past gather → gather'.Leaving →
      gather'.launches = gather.launches → I (past ++ [action]) gather')
    (h : OneGather services caps past gather) :
  I past gather
  := by
  induction h with
  | begun hrun hcaps hbegin =>
      exact hbegun _ (begun_of_step (watermarksKept_run hrun) hcaps hbegin)
  | @step past gather action gather' hbefore hwithin _ hnext ih =>
      have hsteps := steps_of_step hnext
      by_cases hleaving : gather.Leaving
      · obtain ⟨hleaving', hlaunches⟩ := hleaving.step hwithin hsteps
        exact hleaves _ _ _ _ ih hleaving' hlaunches
      · have hthroughout := hbefore.throughout
        obtain ⟨observed, hkept⟩ := hthroughout.kept
        rcases affects_of_steps hgathers hkept.agrees hwithin hleaving hsteps with
          ⟨hleaving', hlaunches⟩ | haffects
        · exact hleaves _ _ _ _ ih hleaving' hlaunches
        · exact hstep _ _ _ _ ih hleaving hthroughout haffects

/-- What was spent and what is set aside, for each time an operator comes up, is covered; on its way
out a gather sets nothing aside. -/
structure Covers (services : GatherServices P C O) (operator : O) (gather : Gather O)
    (setAside budget : ℕ) : Prop where
  spent : launchesOf services operator gather ≤ occurrences services operator * budget
  stays : ¬gather.Leaving → launchesOf services operator gather
      + occurrences services operator * setAside
    ≤ occurrences services operator * budget

section Covers

variable {operator : O} {setAside setAside' budget budget' : ℕ}

omit [DecidableEq P] [DecidableEq C] in
theorem Covers.begun (h : gather.tasks = []) (hle : setAside ≤ budget) :
  Covers services operator gather setAside budget
  := by
  have hnone : launchesOf services operator gather = 0 := by
    rw [launchesOf, launches, h]
    rfl
  constructor
  · rw [hnone]
    exact Nat.zero_le _
  · intro _
    rw [hnone, Nat.zero_add]
    exact Nat.mul_le_mul_left _ hle

omit [DecidableEq P] [DecidableEq C] in
/-- A step may spend what is set aside, and what it brings. -/
theorem Covers.step (h : Covers services operator gather setAside budget)
    (hstays : ¬gather.Leaving) {launched : ℕ}
    (hlaunches : launchesOf services operator gather'
      = launchesOf services operator gather + occurrences services operator * launched)
    (hle : setAside' + launched + budget ≤ setAside + budget') :
  Covers services operator gather' setAside' budget'
  := by
  have hcovered : launchesOf services operator gather'
        + occurrences services operator * setAside'
      ≤ occurrences services operator * budget' := by
    have hbefore := h.stays hstays
    have hmul := Nat.mul_le_mul_left (occurrences services operator) hle
    rw [Nat.mul_add, Nat.mul_add, Nat.mul_add] at hmul
    omega
  exact ⟨(Nat.le_add_right _ _).trans hcovered, fun _ => hcovered⟩

omit [DecidableEq P] [DecidableEq C] in
/-- A gather on its way out spends nothing. -/
theorem Covers.leaves (h : Covers services operator gather setAside budget)
    (hleaves : gather'.Leaving) (hlaunches : gather'.launches = gather.launches)
    (hle : budget ≤ budget') :
  Covers services operator gather' setAside' budget'
  := by
  constructor
  · rw [launchesOf, hlaunches]
    exact h.spent.trans (Nat.mul_le_mul_left _ hle)
  · exact fun hstays => absurd hleaves hstays

end Covers

omit [DecidableEq C] in
/-- What an operator is launched for does not become less. -/
theorem income_le_append (operator : O) (past : List GatherAction) (action : GatherAction) :
  income services operator past ≤ income services operator (past ++ [action])
  := by
  have happend := @income_append P C O _ services operator past action
  have hlacks := (availability past).lacks_observe action
    ⟨none, false, 0, false, none, ∅, none, 0⟩ false
  rw [Bool.false_and, Bool.false_and, Bool.toNat_false, Nat.zero_add, Nat.zero_add] at hlacks
  omega

omit [DecidableEq C] in
/-- A gather begins with at most one launch to come, the first one. -/
theorem reserve_begun {operator : O} (h : Begun caps gather) :
  reserve services operator ∅ gather ≤ attempts services operator
  := by
  have hrunning : (gather.memory.view (services.operatorId operator)).running = none := by
    rw [OperatorMemory.view, h.running]
    rfl
  have harmed : (gather.memory.view (services.operatorId operator)).armed = false := by
    rw [OperatorMemory.view, h.retries]
    rfl
  have hretries : (gather.memory.view (services.operatorId operator)).retriesLeft
      (maxAttempts services (services.operatorId operator)) = 0 := by
    simp only [OperatorView.retriesLeft, hrunning, harmed, Bool.false_eq_true, if_false]
  have hlacks : (gather.memory.view (services.operatorId operator)).lacks ∅ = false :=
    decide_eq_false (not_not_intro (Finset.empty_subset _))
  have hupcoming : gather.upcoming = [] := by
    rw [upcoming, h.phase, h.queue]
    rfl
  have hone : untriggered services operator ∅ gather ≤ 1 := by
    rw [untriggered, hlacks, hupcoming, Bool.and_false, Bool.toNat_false, List.countP_nil]
    exact Bool.toNat_le _
  rw [reserve, hretries, Nat.add_zero]
  calc attempts services operator * untriggered services operator ∅ gather
      ≤ attempts services operator * 1 := Nat.mul_le_mul_left _ hone
    _ = attempts services operator := Nat.mul_one _

/-- In a gather an operator is launched no more often than what triggers it allows. -/
theorem OneGather.launchesOf_le {operator : O} (hgathers : operator ∈ services.gathering)
    (h : OneGather services caps past gather) :
  launchesOf services operator gather
    ≤ occurrences services operator * (attempts services operator * income services operator past)
  := by
  have hcovers : Covers services operator gather
      (reserve services operator (availability past).available gather)
      (attempts services operator * income services operator past) := by
    refine h.invariant (I := fun past gather => Covers services operator gather
      (reserve services operator (availability past).available gather)
      (attempts services operator * income services operator past)) hgathers ?_ ?_ ?_
    · intro gather hbegun
      have hone : income services operator [] = 1 := rfl
      rw [hone, Nat.mul_one]
      exact .begun hbegun.tasks (reserve_begun hbegun)
    · intro past gather action gather' hbefore hstays hthroughout haffects
      obtain ⟨observed, hkept⟩ := hthroughout.kept
      have hapart : (gather.memory.view (services.operatorId operator)).running.isSome = true →
          (gather.memory.view (services.operatorId operator)).armed = false := by
        intro hrunning
        rw [← Bool.not_eq_true]
        intro harmed
        have hidle := (hthroughout.retriesWait harmed).idle
        rw [OperatorMemory.view, hidle] at hrunning
        cases hrunning
      obtain ⟨launched, paid, haccounts⟩ :=
        haffects.accounts (availability past) hkept hapart
      apply hbefore.step hstays haccounts.launches
      rw [availability_append]
      -- What is paid for is what the step brings, with the retries that it may come to.
      have hincome := @income_append P C O _ services operator past action
      have huntriggered := haccounts.untriggered
      have hmul := Nat.mul_le_mul_left (attempts services operator)
        (show untriggered services operator ((availability past).observe action).available gather'
            + paid + income services operator past
          ≤ untriggered services operator (availability past).available gather
            + income services operator (past ++ [action]) by omega)
      rw [Nat.mul_add, Nat.mul_add, Nat.mul_add] at hmul
      have hretries := haccounts.retries
      rw [reserve, reserve]
      omega
    · intro past gather action gather' hbefore hleaves hlaunches
      exact hbefore.leaves hleaves hlaunches (Nat.mul_le_mul_left _ (income_le_append _ _ _))
  exact hcovers.spent

/-- In a gather an operator with a cap is launched no more often than its cap allows. -/
theorem OneGather.launchesOf_le_of_cap {operator : O} (hgathers : operator ∈ services.gathering)
    {cap : ℤ} (hcap : caps.get? (services.operatorId operator) = some cap)
    (h : OneGather services caps past gather) :
  launchesOf services operator gather ≤ occurrences services operator * cap.toNat
  := by
  have hcovers : (¬gather.Leaving →
        (gather.memory.view (services.operatorId operator)).cap = some cap)
      ∧ Covers services operator gather
        ((gather.memory.view (services.operatorId operator)).runsLeft cap) cap.toNat := by
    refine h.invariant (I := fun _ gather => (¬gather.Leaving →
        (gather.memory.view (services.operatorId operator)).cap = some cap)
      ∧ Covers services operator gather
        ((gather.memory.view (services.operatorId operator)).runsLeft cap) cap.toNat) hgathers ?_ ?_ ?_
    · intro gather hbegun
      refine ⟨fun _ => ?_, .begun hbegun.tasks ?_⟩
      · rw [← hcap, ← hbegun.caps]
        rfl
      · rw [OperatorView.runsLeft]
        omega
    · rintro past gather action gather' ⟨hbefore, hcovers⟩ hstays - haffects
      obtain ⟨hafter, launched, hlaunches, hle⟩ := haffects.runsLeft (hbefore hstays)
      refine ⟨fun _ => hafter, hcovers.step hstays hlaunches ?_⟩
      omega
    · rintro past gather action gather' ⟨-, hcovers⟩ hleaves hlaunches
      exact ⟨fun hstays => absurd hleaves hstays, hcovers.leaves hleaves hlaunches (le_refl _)⟩
  exact hcovers.2.spent

/-! ### Launches and emissions -/

/-- The DataPoints that were delivered. -/
def deliveries (past : List GatherAction) : ℕ :=
  (past.map (fun action => (delivered action).length)).sum

def isEmissionOf (task : ℕ) : GatherAction → Bool
  | .emit i _ _ => decide (i = task)
  | _ => false

/-- The DataPoints that a run emitted, by the number of its task. -/
def emissionsOf (task : ℕ) (past : List GatherAction) : ℕ := past.countP (isEmissionOf task)

variable (services) in
/-- An operator may emit what makes another run again. -/
def CanTrigger (producer operator : O) : Prop :=
  ∃ dataPointType, services.declarations.emissionDeclared producer
      (services.leafClass dataPointType) = true
    ∧ services.triggers operator dataPointType = true

omit [DecidableEq P] [DecidableEq C] in
/-- A launch stays one. -/
theorem prefix_launches [DecidableEq P] [DecidableEq C]
    (hwithin : ∀ deadline, action ≠ .begin' deadline)
    (hstep : gather.step services action = some gather') :
  gather.launches <+: gather'.launches
  := by
  rcases launches_of_steps hwithin (steps_of_step hstep) with hsame | ⟨_, _, _, -, hmore⟩
  · rw [hsame]
  · rw [hmore]
    exact List.prefix_append _ _

/-- Only the operators of the gather are launched. -/
theorem OneGather.gathers (h : OneGather services caps past gather) :
  ∀ launched ∈ gather.launches, launched.operator ∈ services.gathering
  := by
  induction h with
  | begun hrun hcaps hbegin =>
      rw [launches, (begun_of_step (watermarksKept_run hrun) hcaps hbegin).tasks]
      intros
      contradiction
  | step _ hwithin _ hstep ih =>
      rcases launches_of_steps hwithin (steps_of_step hstep) with
        hsame | ⟨available, view, plan, hplan, hmore⟩
      · rw [hsame]
        exact ih
      · rw [hmore, List.forall_mem_append]
        use ih
        intro launched hlaunched
        obtain ⟨runnable, hrunnable, rfl⟩ := List.mem_map.mp hlaunched
        exact (GatherServices.plan_runnable hplan).1.subset (List.mem_map_of_mem hrunnable)

/-- What emits is a task. -/
theorem exists_task_of_emit {task : ℕ} {emission : DataPointEmission} {at' : Timestamp}
    (hstep : gather.step services (.emit task emission at') = some gather') :
  ∃ run, gather.tasks[task]? = some run
  := by
  simp only [step, taskStep] at hstep
  split at hstep
  · rename_i run hrun
    use run
  · cases hstep

/-- What an action triggers an operator with is delivered, or emitted by one of the runs that can. -/
theorem stimulus_le {operator : O} {triggering : Finset ℕ}
    (hall : ∀ i launched, gather'.launches[i]? = some launched →
      CanTrigger services launched.operator operator → i ∈ triggering)
    (hwithin : ∀ deadline, action ≠ .begin' deadline)
    (hdeclared : EmitsDeclared services gather action)
    (hstep : gather.step services action = some gather') :
  stimulus services operator action
    ≤ (delivered action).length
      + ∑ i ∈ triggering, if isEmissionOf i action = true then 1 else 0
  := by
  unfold stimulus
  split
  · rename_i task emission at'
    obtain ⟨run, hrun⟩ := exists_task_of_emit hstep
    cases htriggers : services.triggers operator emission.leafType with
    | false =>
        rw [List.countP_singleton, htriggers]
        exact Nat.zero_le _
    | true =>
        have hlaunched : gather.launches[task]? = some run.launch := by
          rw [launches, List.getElem?_map, hrun]
          rfl
        obtain ⟨rest, hmore⟩ := prefix_launches hwithin hstep
        have hmem : task ∈ triggering := by
          apply hall task run.launch
          · rw [← hmore, List.getElem?_append_left (List.getElem?_eq_some_iff.mp hlaunched).1]
            exact hlaunched
          · exact ⟨emission.leafType, hdeclared run hrun, htriggers⟩
        have hone := Finset.single_le_sum (f := fun i =>
          if isEmissionOf i (.emit task emission at') = true then 1 else 0)
          (fun _ _ => Nat.zero_le _) hmem
        simp only [isEmissionOf, decide_true, if_true] at hone
        rw [List.countP_singleton, htriggers, if_pos rfl]
        exact hone.trans (Nat.le_add_left _ _)
  · calc ((delivered action).map BaseDataPoint.type).countP (services.triggers operator)
        ≤ ((delivered action).map BaseDataPoint.type).length := List.countP_le_length
      _ = (delivered action).length := List.length_map _
      _ ≤ _ := Nat.le_add_right _ _

/-- What has triggered an operator was delivered, or emitted by the runs that can trigger it. -/
theorem OneGather.stimuli_le {operator : O} {triggering : Finset ℕ}
    (h : OneGather services caps past gather)
    (hall : ∀ i launched, gather.launches[i]? = some launched →
      CanTrigger services launched.operator operator → i ∈ triggering) :
  (past.map (stimulus services operator)).sum
    ≤ deliveries past + ∑ i ∈ triggering, emissionsOf i past
  := by
  induction h with
  | begun _ _ _ => exact Nat.zero_le _
  | @step past gather action gather' _ hwithin hdeclared hstep ih =>
      obtain ⟨rest, hmore⟩ := prefix_launches hwithin hstep
      have hbefore : ∀ i launched, gather.launches[i]? = some launched →
          CanTrigger services launched.operator operator → i ∈ triggering := by
        intro i launched hlaunched
        apply hall i launched
        rw [← hmore, List.getElem?_append_left (List.getElem?_eq_some_iff.mp hlaunched).1]
        exact hlaunched
      have hone := stimulus_le hall hwithin hdeclared hstep
      have hsum : ∑ i ∈ triggering, emissionsOf i (past ++ [action])
          = ∑ i ∈ triggering, emissionsOf i past
            + ∑ i ∈ triggering, if isEmissionOf i action = true then 1 else 0 := by
        rw [← Finset.sum_add_distrib]
        apply Finset.sum_congr rfl
        intro i _
        rw [emissionsOf, List.countP_append, List.countP_singleton]
        rfl
      have hrest := ih hbefore
      rw [List.map_append, List.sum_append, List.map_singleton, List.sum_singleton, hsum, deliveries,
        List.map_append, List.sum_append, List.map_singleton, List.sum_singleton]
      rw [deliveries] at hrest
      omega

/-! ### The last task -/

section LastTask

variable {tasks : List (OperatorTask O)} {task : OperatorTask O}

/-- The last task emits. -/
theorem step_emit_last (htasks : gather.tasks = tasks ++ [task]) (hrunning : task.status = .running)
    {emission : DataPointEmission} {at' : Timestamp} {finalized : FinalizedDataPoint}
    (hfinalized : emission.finalize services.validate (services.operatorId task.operator) at'
      = .ok finalized)
    (hroom : gather.queue.length < services.queueSize) :
  gather.step services (.emit tasks.length emission at')
    = some (gather.enqueue (.emitted ⟨services.operatorId task.operator, finalized⟩))
  := by
  simp only [step, taskStep, htasks, List.getElem?_concat_length, hrunning, if_true,
    emit, hfinalized, hroom]

/-- The last task gets on. -/
theorem setStatus_last (htasks : gather.tasks = tasks ++ [task]) (status : TaskStatus) :
  gather.setStatus tasks.length task status
    = { gather with tasks := tasks ++ [{ task with status := status }] }
  := by
  rw [setStatus, htasks, List.set_append_right _ _ (le_refl _), Nat.sub_self]
  rfl

/-- The last task finishes. -/
theorem step_finish_last (htasks : gather.tasks = tasks ++ [task])
    (hrunning : task.status = .running) :
  gather.step services (.finish tasks.length)
    = some { gather with tasks := tasks ++ [{ task with status := .completing none }] }
  := by
  simp only [step, taskStep, htasks, List.getElem?_concat_length, hrunning, if_true,
    setStatus_last htasks]

/-- The last task puts its completion on the queue. -/
theorem step_complete_last (htasks : gather.tasks = tasks ++ [task]) {error : Option String}
    (hcompleting : task.status = .completing error) (runSeconds : Monotonic)
    (hroom : gather.queue.length < services.queueSize) :
  gather.step services (.complete tasks.length runSeconds)
    = some (({ gather with tasks := tasks ++ [{ task with status := .finished }] } :
        Gather O).enqueue (.completed ⟨services.operatorId task.operator, error, runSeconds⟩))
  := by
  simp only [step, taskStep, htasks, List.getElem?_concat_length, hcompleting,
    complete, hroom, if_true, setStatus_last htasks]

end LastTask

end Runs

end Gather

end Orcastork
