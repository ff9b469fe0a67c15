import Orcastork.Orchestrator.DueOperators
import Orcastork.Orchestrator.RetryDeltas

/-!
# Armed retries

The failure of a run can arm a retry, which the next passes launch once it is due. A pass looks at
the armed retry of an operator only if the operator is ready: one that has lost a capability since
its run is neither launched nor waited for, and if there is nothing else to do, the gather ends with
its retry armed. Where every pass finds the operators whose retries are armed ready
(`RetriesReady`), no retry is armed as a gather ends quiescent, and every failure that armed one is
followed by the retry (`armed_retry_launched`).
-/

namespace Orcastork

namespace CircuitBreaker

/-- A run of another operator trips nothing. -/
theorem isTripped_recordRun_of_ne (breaker : CircuitBreaker) {operatorId other : OperatorId}
    (h : operatorId ≠ other) :
  (breaker.recordRun operatorId).isTripped other = breaker.isTripped other
  := by
  rw [isTripped, runs_recordRun, if_neg h, Nat.add_zero]
  rfl

end CircuitBreaker

namespace Gather

variable {P C O : Type} {services : GatherServices P C O} {gather gather' : Gather O}

/-- The operator of an armed retry can wait for it: it is one of the gather, it does not run, and
its breaker is not tripped. -/
structure Waits (services : GatherServices P C O) (memory : OperatorMemory)
    (operatorId : OperatorId) : Prop where
  idle : memory.running.get? operatorId = none
  untripped : memory.breaker.isTripped operatorId = false
  gathers : ∃ operator ∈ services.gathering, services.operatorId operator = operatorId

/-- The operators of the armed retries wait for them. -/
def RetriesWait (services : GatherServices P C O) (memory : OperatorMemory) : Prop :=
  ∀ {operatorId}, memory.retries.isScheduled operatorId = true → Waits services memory operatorId

/-- No retry is armed once the loop is done. -/
def NoneForgotten (gather : Gather O) : Prop :=
  gather.phase.exit? = some .quiescent →
    ∀ operatorId, gather.memory.retries.isScheduled operatorId = false

/-! ### Recording -/

/-- A retry is only armed for an operator of the gather whose breaker is not tripped. -/
theorem retry_of_remember {completion : Completion}
    (h : (gather.remember services completion).1 = true) :
  (∃ operator ∈ services.gathering, services.operatorId operator = completion.operatorId)
    ∧ (gather.memory.breaker.recordRun completion.operatorId).isTripped completion.operatorId
      = false
  := by
  rcases @remember_cases P C O services gather completion with
    hremember | ⟨policy, hpolicy, -, huntripped, -⟩
  · rw [hremember] at h
    cases h
  · rw [retryOf, Option.bind_eq_some_iff] at hpolicy
    obtain ⟨operator, hfound, -⟩ := hpolicy
    have hsame := List.find?_some hfound
    rw [decide_eq_true_eq] at hsame
    constructor
    · use operator, List.mem_of_find?_eq_some hfound
    · apply huntripped

/-- What is remembered of a recorded run lets the armed retries wait. -/
theorem RetriesWait.remember (h : RetriesWait services gather.memory) {completion : Completion}
    {record : RunningRecord}
    (hrunning : gather.memory.running.get? completion.operatorId = some record) :
  RetriesWait services (gather.remember services completion).2
  := by
  -- A retry that was armed is that of another operator, as this one ran.
  have hbefore : ∀ {operatorId}, gather.memory.retries.isScheduled operatorId = true →
      Waits services (gather.remember services completion).2 operatorId := by
    intro operatorId harmed
    obtain ⟨hidle, huntripped, hgathers⟩ := h harmed
    have hne : completion.operatorId ≠ operatorId := by
      rintro rfl
      rw [hrunning] at hidle
      cases hidle
    refine ⟨?_, ?_, hgathers⟩
    · rw [running_remember, Dict.get?_erase, if_neg hne]
      exact hidle
    · rw [Booked.breaker_remember, CircuitBreaker.isTripped_recordRun_of_ne _ hne]
      exact huntripped
  intro operatorId harmed
  cases hretrying : (gather.remember services completion).1 with
  | true =>
      rcases (retries_remember_of_retrying hretrying).2 operatorId harmed with rfl | harmed
      · obtain ⟨hgathers, huntripped⟩ := retry_of_remember hretrying
        refine ⟨?_, ?_, hgathers⟩
        · rw [running_remember, Dict.get?_erase, if_pos rfl]
        · rw [Booked.breaker_remember]
          exact huntripped
      · exact hbefore harmed
  | false =>
      rw [retries_remember_of_not hretrying] at harmed
      exact hbefore harmed

/-- The recording of a completion lets the armed retries wait. -/
theorem Records.retriesWait {now : Timestamp} {faults : RecordFaults} {completion : Completion}
    {result : Except OrchestrationError Unit}
    (hrecords : Records services gather now faults completion result gather')
    (h : RetriesWait services gather.memory) :
  RetriesWait services gather'.memory
  := by
  cases hrecords with
  | unknown _ => exact h
  | auditRaised hrunning _ => exact h.remember hrunning
  | watermarkRaised hrunning _ _ => exact h.remember hrunning
  | retried hrunning _ _ => exact h.remember hrunning
  | advanced hrunning _ _ _ =>
      intro operatorId harmed
      obtain ⟨hidle, huntripped, hgathers⟩ := h.remember hrunning harmed
      exact ⟨hidle, huntripped, hgathers⟩

/-- A retry that is armed stays so as a run is remembered. -/
theorem stays_armed_remember (completion : Completion) {operatorId : OperatorId}
    (h : gather.memory.retries.isScheduled operatorId = true) :
  (gather.remember services completion).2.retries.isScheduled operatorId = true
  := by
  rw [isScheduled_retries_remember, h, Bool.or_true]

/-- A retry that is armed stays so as a completion is recorded. -/
theorem Records.stays_armed {now : Timestamp} {faults : RecordFaults} {completion : Completion}
    {result : Except OrchestrationError Unit}
    (hrecords : Records services gather now faults completion result gather')
    {operatorId : OperatorId} (h : gather.memory.retries.isScheduled operatorId = true) :
  gather'.memory.retries.isScheduled operatorId = true
  := by
  cases hrecords with
  | unknown _ => exact h
  | auditRaised _ _ => exact stays_armed_remember completion h
  | watermarkRaised _ _ _ => exact stays_armed_remember completion h
  | retried _ _ _ => exact stays_armed_remember completion h
  | advanced _ _ _ _ => exact stays_armed_remember completion h

/-! ### Launches -/

/-- A launch clears the retry of its operator, if it is one. -/
theorem isScheduled_launches (available : Finset CapabilityId) (observed : Revision)
    (runnables : List (Runnable O)) (other : OperatorId) :
  (runnables.foldl (launch services available observed) gather).memory.retries.isScheduled other
    = (gather.memory.retries.isScheduled other
      && !runnables.any (fun runnable =>
        runnable.isRetry && decide (services.operatorId runnable.operator = other)))
  := by
  induction runnables generalizing gather with
  | nil => exact (Bool.and_true _).symm
  | cons runnable runnables ih =>
      rw [List.foldl_cons, ih, List.any_cons, Bool.not_or, ← Bool.and_assoc]
      congr 1
      rw [launch]
      cases runnable.isRetry with
      | true =>
          rw [Bool.true_and, ← decide_not,
            Bool.and_comm (gather.memory.retries.isScheduled other)]
          exact DebounceController.isScheduled_clear other
      | false => exact (Bool.and_true _).symm

/-- What is launched runs, beside what did. -/
theorem isSome_running_launches (available : Finset CapabilityId) (observed : Revision)
    (runnables : List (Runnable O)) (other : OperatorId) :
  ((runnables.foldl (launch services available observed) gather).memory.running.get? other).isSome
    = ((gather.memory.running.get? other).isSome
      || runnables.any (fun runnable => decide (services.operatorId runnable.operator = other)))
  := by
  induction runnables generalizing gather with
  | nil => exact (Bool.or_false _).symm
  | cons runnable runnables ih =>
      rw [List.foldl_cons, ih, List.any_cons, ← Bool.or_assoc]
      congr 1
      rw [launch, Dict.get?_set]
      by_cases hsame : services.operatorId runnable.operator = other
      · rw [if_pos hsame, decide_eq_true hsame, Bool.or_true]
        rfl
      · rw [if_neg hsame, decide_eq_false hsame, Bool.or_false]

variable [DecidableEq P] [DecidableEq C] {view : DataPointView} {available : Finset CapabilityId}
  {observed : Revision} {plan : GatherPlan O}

omit [DecidableEq P] [DecidableEq C] in
/-- A retry that a pass no longer has armed was launched by it. -/
theorem launched_of_disarmed {operatorId : OperatorId}
    (harmed : gather.memory.retries.isScheduled operatorId = true)
    (hdisarmed : (gather.launchAll services available observed plan).memory.retries.isScheduled
      operatorId = false) :
  ∃ runnable ∈ plan.runnable, runnable.isRetry = true
    ∧ services.operatorId runnable.operator = operatorId
  := by
  rw [launchAll, isScheduled_launches] at hdisarmed
  change (gather.memory.retries.isScheduled operatorId && _) = false at hdisarmed
  rw [harmed, Bool.true_and, Bool.not_eq_false', List.any_eq_true] at hdisarmed
  obtain ⟨runnable, hrunnable, hretry⟩ := hdisarmed
  rw [Bool.and_eq_true, decide_eq_true_eq] at hretry
  exact ⟨runnable, hrunnable, hretry⟩

/-- The launches of a pass let the retries that are still armed wait. -/
theorem RetriesWait.launchAll (h : RetriesWait services gather.memory)
    (hplan : services.plan gather.state.mirror gather.memory view available gather.now = .ok plan) :
  RetriesWait services (gather.launchAll services available observed plan).memory
  := by
  intro operatorId harmed
  have hbefore : gather.memory.retries.isScheduled operatorId = true
      ∧ ∀ runnable ∈ plan.runnable, runnable.isRetry = true →
        services.operatorId runnable.operator ≠ operatorId := by
    rw [Gather.launchAll, isScheduled_launches, Bool.and_eq_true, Bool.not_eq_true',
      List.any_eq_false] at harmed
    use harmed.1
    intro runnable hrunnable hretry hsame
    apply harmed.2 runnable hrunnable
    rw [hretry, decide_eq_true hsame]
    rfl
  obtain ⟨hidle, huntripped, hgathers⟩ := h hbefore.1
  obtain ⟨-, -, -, -, -, -, hbreaker, -⟩ :=
    @launchAll_frame P C O services gather available observed plan
  refine ⟨?_, ?_, hgathers⟩
  · rw [← Option.not_isSome_iff_eq_none, Gather.launchAll, isSome_running_launches]
    change ¬((gather.memory.running.get? operatorId).isSome || _) = true
    rw [hidle, Option.isSome_none, Bool.false_or, List.any_eq_true]
    rintro ⟨runnable, hrunnable, hsame⟩
    rw [decide_eq_true_eq] at hsame
    -- The launch of an operator whose retry is armed is that retry.
    have hretry := ((GatherServices.plan_runnable hplan).2 runnable hrunnable).retry
    rw [hsame, hbefore.1] at hretry
    exact hbefore.2 runnable hrunnable hretry hsame
  · rw [hbreaker]
    exact huntripped

/-! ### The quiescent exit -/

/-- A pass finds the operators whose retries are armed ready, with the DataPoints that are present
and the capabilities that are available to it. -/
def RetriesReady (services : GatherServices P C O) (gather : Gather O) : GatherAction → Prop
  | .refresh available none =>
    ∀ view, gather.phase = .refreshing →
      gather.state.mirror.snapshot gather.state.mirror.sessionId = .ok view →
      ∀ operator ∈ services.gathering,
        gather.memory.retries.isScheduled (services.operatorId operator) = true →
        services.declarations.isReady operator (services.presentTypes view)
          (services.availableTypes available) = true
  | _ => True

/-- An armed retry whose operator is ready is due or awaited. -/
theorem Waits.due_or_awaited {operator : O}
    (h : Waits services gather.memory (services.operatorId operator))
    (harmed : gather.memory.retries.isScheduled (services.operatorId operator) = true)
    (hready : services.declarations.isReady operator (services.presentTypes view)
      (services.availableTypes available) = true) :
  services.isDue gather.state.mirror gather.memory view available gather.now operator = true
    ∨ services.isAwaited gather.state.mirror gather.memory view available gather.now operator = true
  := by
  have hopen : services.isOpen gather.memory view available operator = true := by
    rw [GatherServices.isOpen, h.idle, h.untripped, hready]
    rfl
  rw [GatherServices.isDue, GatherServices.isAwaited, hopen, if_pos harmed, if_pos harmed,
    Bool.true_and, Bool.true_and, Bool.not_eq_true']
  exact Bool.eq_false_or_eq_true _

omit [DecidableEq P] [DecidableEq C] in
/-- If nothing runs after the launches of a pass, nothing ran before, and nothing was launched. -/
theorem idle_of_launchAll
    (h : (gather.launchAll services available observed plan).memory.running.keys = []) :
  gather.memory.running.keys = [] ∧ plan.runnable = []
  := by
  have hnone : ∀ other, ((gather.memory.running.get? other).isSome
      || plan.runnable.any (fun runnable => decide (services.operatorId runnable.operator = other)))
      = false := by
    intro other
    rw [← Bool.not_eq_true]
    intro hruns
    have hmem : other ∈ (gather.launchAll services available observed plan).memory.running.keys := by
      rw [← Dict.get?_isSome_iff, launchAll, isSome_running_launches]
      exact hruns
    rw [h] at hmem
    cases hmem
  constructor
  · apply List.eq_nil_iff_forall_not_mem.mpr
    intro other hother
    have hruns := (Bool.or_eq_false_iff.mp (hnone other)).1
    rw [Dict.get?_isSome_iff.mpr hother] at hruns
    cases hruns
  · apply List.eq_nil_iff_forall_not_mem.mpr
    intro runnable hrunnable
    have hany := (Bool.or_eq_false_iff.mp (hnone (services.operatorId runnable.operator))).2
    rw [List.any_eq_false] at hany
    exact hany runnable hrunnable (decide_eq_true rfl)

/-- A pass by which the loop is done finds nothing running, the session complete, and no operator due
or awaited. -/
theorem settled_of_done
    (hplan : services.plan gather.state.mirror gather.memory view available gather.now = .ok plan)
    (hdone : (gather.launchAll services available observed plan).nextPhase services view
      plan.soonestDue = .draining .quiescent) :
  gather.memory.running.keys = [] ∧ plan.runnable = [] ∧ services.completionSatisfied view = true
    ∧ ∀ operator ∈ services.gathering,
      services.isDue gather.state.mirror gather.memory view available gather.now operator = false
        ∧ services.isAwaited gather.state.mirror gather.memory view available gather.now operator
          = false
  := by
  unfold nextPhase at hdone
  split at hdone
  · cases hdone
  · rename_i hrunning
    split at hdone
    · cases hdone
    · rename_i hsoonest
      split at hdone
      · rename_i hsatisfied
        rw [Bool.not_eq_true', Bool.not_eq_false, List.isEmpty_iff] at hrunning
        obtain ⟨hidle, hnone⟩ := idle_of_launchAll hrunning
        refine ⟨hidle, hnone, hsatisfied, ?_⟩
        have hfilter := GatherServices.runnable_eq_filter hplan
        rw [hnone, List.map_nil, eq_comm, List.filter_eq_nil_iff] at hfilter
        intro operator hoperator
        constructor
        · rw [← Bool.not_eq_true]
          exact hfilter operator hoperator
        · exact (GatherServices.soonestDue_eq_none_iff hplan).mp hsoonest operator hoperator
      · cases hdone

/-- A step by which the loop is done is a pass. -/
theorem passed_of_done {action : GatherAction} (hstep : Steps services gather action gather')
    (hbefore : gather.phase ≠ .draining .quiescent) (hdone : gather'.phase = .draining .quiescent) :
  ∃ available view observed plan, action = .refresh available none ∧ gather.phase = .refreshing
    ∧ gather.state.mirror.snapshot gather.state.mirror.sessionId = .ok view
    ∧ services.plan gather.state.mirror gather.memory view available gather.now = .ok plan
    ∧ (gather.launchAll services available observed plan).nextPhase services view plan.soonestDue
      = .draining .quiescent
    ∧ gather'.memory = (gather.launchAll services available observed plan).memory
    ∧ gather'.state = (gather.launchAll services available observed plan).state
  := by
  cases hstep with
  | @passed available view observed plan hphase hview _ hplan =>
      refine ⟨available, view, observed, plan, rfl, hphase, hview, hplan, hdone, rfl, rfl⟩
  | elapse span => cases hbefore hdone
  | audit _ _ => cases hbefore hdone
  | stopped _ _ _ => cases hbefore hdone
  | emitted _ _ _ _ => cases hbefore hdone
  | completed _ _ _ => cases hbefore hdone
  | vanished _ _ => cases hbefore hdone
  | cancelled _ _ _ => cases hbefore hdone
  | seeded _ _ => cases hbefore hdone
  | delivered _ _ => cases hbefore hdone
  | merged _ _ _ =>
      rw [Gather.recordRest] at hdone
      split at hdone
      · cases hdone
      · cases hdone
  | recorded _ _ =>
      rw [Gather.recordRest] at hdone
      split at hdone
      · cases hdone
      · cases hdone
  | drained _ _ _ =>
      simp only at hdone
      split at hdone
      · cases hdone
      · cases hdone
  | moved hmoves =>
      cases hmoves with
      | _ => cases hdone
  | disposed _ _ => cases hbefore hdone
  | contributed _ _ => cases hbefore hdone
  | _ => cases hdone

/-- A pass by which the loop is done leaves no retry armed. -/
theorem noneForgotten_passed (h : RetriesWait services gather.memory)
    (hready : RetriesReady services gather (.refresh available none))
    (hphase : gather.phase = .refreshing)
    (hview : gather.state.mirror.snapshot gather.state.mirror.sessionId = .ok view)
    (hplan : services.plan gather.state.mirror gather.memory view available gather.now = .ok plan)
    (hdone : (gather.launchAll services available observed plan).nextPhase services view
      plan.soonestDue = .draining .quiescent)
    (operatorId : OperatorId) :
  (gather.launchAll services available observed plan).memory.retries.isScheduled operatorId = false
  := by
  obtain ⟨-, -, -, hlate⟩ := settled_of_done hplan hdone
  rw [← Bool.not_eq_true]
  intro harmed
  rw [launchAll, isScheduled_launches, Bool.and_eq_true] at harmed
  obtain ⟨operator, hoperator, rfl⟩ := (h harmed.1).gathers
  obtain ⟨hundue, hunawaited⟩ := hlate operator hoperator
  rcases (h harmed.1).due_or_awaited harmed.1
    (hready view hphase hview operator hoperator harmed.1)
    with hdue | hawaited
  · rw [hdue] at hundue
    cases hundue
  · rw [hawaited] at hunawaited
    cases hunawaited

/-! ### Steps -/

/-- A step lets the armed retries wait. -/
theorem RetriesWait.step (h : RetriesWait services gather.memory) {action : GatherAction}
    (hstep : Steps services gather action gather') :
  RetriesWait services gather'.memory
  := by
  cases hstep with
  | begun _ _ =>
      intro operatorId harmed
      cases harmed
  | passed _ _ _ hplan => exact h.launchAll hplan
  | recorded _ hrecords => exact hrecords.retriesWait h
  | recordRaised _ hrecords => exact hrecords.retriesWait h
  | contributed _ _ =>
      intro operatorId harmed
      obtain ⟨hidle, huntripped, hgathers⟩ := h harmed
      exact ⟨hidle, huntripped, hgathers⟩
  | _ => exact h

/-- The memory stays as it is, and the loop is not done by this step. -/
theorem NoneForgotten.of_same (h : NoneForgotten gather) (hmemory : gather'.memory = gather.memory)
    (hphase : gather'.phase.exit? = some .quiescent → gather.phase.exit? = some .quiescent) :
  NoneForgotten gather'
  := by
  intro hdone
  rw [hmemory]
  exact h (hphase hdone)

/-- A step that leaves no operator of an armed retry behind. -/
theorem NoneForgotten.step (h : NoneForgotten gather) (hwait : RetriesWait services gather.memory)
    {action : GatherAction} (hready : RetriesReady services gather action)
    (hstep : Steps services gather action gather') :
  NoneForgotten gather'
  := by
  cases hstep with
  | elapse span => exact h
  | audit _ _ => exact h
  | stopped _ _ _ => exact h
  | emitted _ _ _ _ => exact h
  | completed _ _ _ => exact h
  | vanished _ _ => exact h
  | cancelled _ _ _ => exact h
  | seeded _ _ => exact h
  | delivered _ _ => exact h
  | seedRaised _ _ =>
      intro hdone
      cases hdone
  | begun _ _ =>
      intro hdone
      cases hdone
  | beginRaised _ _ =>
      intro hdone
      cases hdone
  | deliverRaised _ _ =>
      intro hdone
      cases hdone
  | @passed available view observed plan hphase hview _ hplan =>
      intro hdone operatorId
      apply noneForgotten_passed hwait hready hphase hview hplan
      rcases @nextPhase_cases P C O services (gather.launchAll services available observed plan)
        _ view plan.soonestDue with hnext | ⟨-, ⟨dueAt, hnext⟩ | hnext | ⟨parkAt, hnext⟩⟩
      · rw [hnext] at hdone
        cases hdone
      · rw [hnext] at hdone
        cases hdone
      · exact hnext
      · rw [hnext] at hdone
        cases hdone
  | passRaised _ _ =>
      intro hdone
      cases hdone
  | taken _ =>
      intro hdone
      cases hdone
  | merged _ _ _ =>
      rw [recordRest]
      split
      · intro hdone
        cases hdone
      · intro hdone
        cases hdone
  | mergeRaised _ _ =>
      intro hdone
      cases hdone
  | recorded _ _ =>
      rw [recordRest]
      split
      · intro hdone
        cases hdone
      · intro hdone
        cases hdone
  | recordRaised _ _ =>
      intro hdone
      cases hdone
  | drained hphase _ _ =>
      refine h.of_same rfl ?_
      rw [hphase]
      simp only
      split
      · exact id
      · exact id
  | drainedAgain hphase _ _ =>
      refine h.of_same rfl ?_
      rw [hphase]
      exact id
  | drainRaised _ _ =>
      intro hdone
      cases hdone
  | moved hmoves =>
      cases hmoves with
      | awaited hphase _ =>
          refine h.of_same rfl ?_
          rw [hphase]
          exact id
      | _ =>
          intro hdone
          cases hdone
  | disposed _ _ => exact h
  | contributed _ _ => exact h

/-- A step launches the retry of an operator. -/
def Relaunches (services : GatherServices P C O) (gather gather' : Gather O)
    (operatorId : OperatorId) : Prop :=
  ∃ i task, gather.tasks.length ≤ i ∧ gather'.tasks[i]? = some task
    ∧ services.operatorId task.operator = operatorId ∧ task.isRetry = true

/-- A retry stays armed until it is launched, or another gather begins. -/
theorem relaunches_of_disarmed {action : GatherAction}
    (hbegins : ∀ deadline, action ≠ .begin' deadline) {operatorId : OperatorId}
    (harmed : gather.memory.retries.isScheduled operatorId = true)
    (hdisarmed : ¬gather'.memory.retries.isScheduled operatorId = true)
    (hstep : Steps services gather action gather') :
  Relaunches services gather gather' operatorId
  := by
  cases hstep with
  | begun _ _ => exact absurd rfl (hbegins _)
  | @passed available view observed plan _ _ _ _ =>
      rw [Bool.not_eq_true] at hdisarmed
      obtain ⟨runnable, hrunnable, hretry, hsame⟩ := launched_of_disarmed harmed hdisarmed
      obtain ⟨i, hi⟩ := List.mem_iff_getElem?.mp hrunnable
      refine ⟨gather.tasks.length + i,
        ⟨runnable.operator, runnable.delta, available, runnable.isRetry, .running⟩,
        Nat.le_add_right _ _, ?_, hsame, hretry⟩
      simp only [launchAll]
      rw [tasks_launches, List.getElem?_append_right (Nat.le_add_right _ _), Nat.add_sub_cancel_left,
        List.getElem?_map, hi]
      rfl
  | recorded _ hrecords => exact absurd (hrecords.stays_armed harmed) hdisarmed
  | recordRaised _ hrecords => exact absurd (hrecords.stays_armed harmed) hdisarmed
  | _ => exact absurd harmed hdisarmed

/-! ### Runs -/

/-- After a run whose passes find the operators of the armed retries ready, none is forgotten. -/
theorem noneForgotten_run (services : GatherServices P C O) (epoch : Epoch)
    (caps : Dict OperatorId ℤ) (now : Monotonic) (session : MergeState)
    {actions : List GatherAction}
    (hready : TransitionSystem.Always (Gather.step services) (RetriesReady services)
      (.start services epoch caps now session) actions)
    (hrun : TransitionSystem.run (Gather.step services) (.start services epoch caps now session)
      actions = some gather) :
  NoneForgotten gather
  := by
  have hinvariant : RetriesWait services gather.memory ∧ NoneForgotten gather := by
    apply TransitionSystem.run_invariant_of_always
      (P := fun gather => RetriesWait services gather.memory ∧ NoneForgotten gather)
      _ ⟨fun harmed => Bool.noConfusion harmed, fun _ _ => rfl⟩ hready hrun
    rintro gather action gather' ⟨hwait, hnone⟩ hready hnext
    have hstep := steps_of_step hnext
    exact ⟨hwait.step hstep, hnone.step hwait hready hstep⟩
  exact hinvariant.2

/-- In every run whose passes find the operators ready whose retries are armed, no retry is armed as
the loop is done. A run that was recorded had its watermark moved, or it failed with its retry
armed; and then its retry is launched before the loop is done. -/
theorem armed_retry_launched (services : GatherServices P C O) (epoch : Epoch)
    (caps : Dict OperatorId ℤ) (now : Monotonic) (session : MergeState)
    {taken rest : List GatherAction} {action : GatherAction}
    (hready : TransitionSystem.Always (Gather.step services) (RetriesReady services)
      (.start services epoch caps now session) (taken ++ action :: rest))
    {before after last : Gather O}
    (hbefore : TransitionSystem.run (Gather.step services) (.start services epoch caps now session)
      taken = some before)
    (hnext : before.step services action = some after)
    (hlast : TransitionSystem.run (Gather.step services) after rest = some last)
    (hdone : last.phase.exit? = some .quiescent) :
  (∀ operatorId, last.memory.retries.isScheduled operatorId = false)
    ∧ ∀ run, after.recorded = before.recorded ++ [run] →
      (∀ next ∈ rest, ∀ deadline, next ≠ .begin' deadline) →
      (∃ revision, run.advancedTo = some revision
        ∧ after.state.store.getWatermark run.completion.operatorId = some revision)
      ∨ run.advancedTo = none ∧ ∃ first next later gather gather', rest = first ++ next :: later
        ∧ TransitionSystem.run (Gather.step services) after first = some gather
        ∧ gather.step services next = some gather'
        ∧ Relaunches services gather gather' run.completion.operatorId
  := by
  have hnone : NoneForgotten last := by
    apply noneForgotten_run services epoch caps now session hready
    apply TransitionSystem.run_append_eq_some.mpr
    use before, hbefore
    apply TransitionSystem.run_cons_eq_some.mpr
    exact ⟨after, hnext, hlast⟩
  use hnone hdone
  intro run hrecorded hbegins
  have hsettled : after.Settled run := by
    rcases settled_step (steps_of_step hnext) with hsame | ⟨run', hrecorded', hsettled⟩
    · rw [hsame] at hrecorded
      exact absurd (congrArg List.length hrecorded) (by
        rw [List.length_append, List.length_singleton]
        omega)
    · rw [hrecorded] at hrecorded'
      obtain ⟨-, hsame⟩ := List.append_inj_right' hrecorded' rfl
      exact hsettled
  rw [Settled] at hsettled
  cases hadvanced : run.advancedTo with
  | some revision =>
      rw [hadvanced] at hsettled
      left
      exact ⟨revision, rfl, hsettled⟩
  | none =>
      rw [hadvanced] at hsettled
      right
      use rfl
      obtain ⟨first, next, later, gather, gather', hsplit, hfirst, hnext', harmed, hdisarmed⟩ :=
        TransitionSystem.exists_step_of_lost
          (P := fun gather : Gather O =>
            gather.memory.retries.isScheduled run.completion.operatorId = true)
          hsettled hlast (by
            rw [hnone hdone]
            exact Bool.false_ne_true)
      refine ⟨first, next, later, gather, gather', hsplit, hfirst, hnext', ?_⟩
      apply relaunches_of_disarmed _ harmed hdisarmed (steps_of_step hnext')
      apply hbegins
      rw [hsplit]
      exact List.mem_append_right _ List.mem_cons_self

end Gather

/-! ### A reader that searches -/

/-- A reader that needs the capability to search, and is tried again at once. -/
def searchGather : GatherServices DataPointType CapabilityId OperatorId :=
  { textGather ["reader"] (some eagerRetry) with
    flow :=
      { (textGather ["reader"] (some eagerRetry)).flow with
        capabilities := ["search"]
        requires := fun _ => {"search"} } }

/-- A pass with some capabilities at hand. -/
def passActions (available : Finset CapabilityId) : List GatherAction :=
  [.renew none, .inboxDone none, .refresh available none]

/-- A run fails, and its failure is recorded. -/
def failedRunActions : List GatherAction :=
  [.fail 0 "no answer", .complete 0 1, .take, .merge 0 .none]

/-- The reader fails, its retry is armed, and the capability is revoked before the next pass: the
loop is done with the retry armed. -/
theorem armed_retry_forgotten :
  ¬∀ gather,
    TransitionSystem.run (Gather.step searchGather)
        (.start searchGather 1 .empty 0 (Recording.initial "s").state)
        (.begin' 100 :: passActions {"search"} ++ failedRunActions ++ [.record 0 ⟨none, none⟩]
          ++ passActions ∅)
      = some gather →
    gather.phase = .draining .quiescent →
    ∀ operatorId, gather.memory.retries.isScheduled operatorId = false
  := by
  intro h
  have hforgotten := h _ rfl rfl "reader"
  cases hforgotten

/-- A pass to which searching is available finds the reader ready. -/
theorem retriesReady_searchGather (gather : Gather OperatorId) {action : GatherAction}
    (h : ∀ available, action = .refresh available none → available = {"search"}) :
  Gather.RetriesReady searchGather gather action
  := by
  cases action with
  | refresh available error =>
      cases error with
      | some error => trivial
      | none =>
          intro view _ _ operator _ _
          rw [h available rfl]
          apply Declarations.isReady_iff.mpr
          constructor
          · exact fun _ hrequired => absurd hrequired (Finset.notMem_empty _)
          · intro required hrequired
            use required
            rw [Finset.mem_singleton.mp hrequired]
            decide
  | _ => trivial

/-- A run fails. -/
def failedPassActions : List GatherAction := .begin' 100 :: passActions {"search"} ++ failedRunActions

/-- The retry succeeds, and there is nothing else to do. -/
def retriedActions : List GatherAction :=
  passActions {"search"}
    ++ [.finish 1, .complete 1 1, .take, .merge 0 .none, .record 0 ⟨none, none⟩]
    ++ passActions {"search"}

/-- The failure of a reader that can search is followed by its retry. -/
theorem armed_retry_launched_searching :
  ∃ before after last,
    TransitionSystem.run (Gather.step searchGather)
        (.start searchGather 1 .empty 0 (Recording.initial "s").state) failedPassActions
      = some before
    ∧ before.step searchGather (.record 0 ⟨none, none⟩) = some after
    ∧ TransitionSystem.run (Gather.step searchGather) after retriedActions = some last
    ∧ (∀ operatorId, last.memory.retries.isScheduled operatorId = false)
    ∧ ∃ first next later gather gather', retriedActions = first ++ next :: later
      ∧ TransitionSystem.run (Gather.step searchGather) after first = some gather
      ∧ gather.step searchGather next = some gather'
      ∧ Gather.Relaunches searchGather gather gather' "reader"
  := by
  obtain ⟨before, hbefore, after, hnext, last, hlast, hdone, run, hrecorded, hid, hadvanced⟩ :
      ∃ before,
        TransitionSystem.run (Gather.step searchGather)
            (.start searchGather 1 .empty 0 (Recording.initial "s").state) failedPassActions
          = some before
        ∧ ∃ after, before.step searchGather (.record 0 ⟨none, none⟩) = some after
        ∧ ∃ last, TransitionSystem.run (Gather.step searchGather) after retriedActions = some last
        ∧ last.phase.exit? = some .quiescent
        ∧ ∃ run, after.recorded = before.recorded ++ [run] ∧ run.completion.operatorId = "reader"
          ∧ run.advancedTo = none := ⟨_, rfl, _, rfl, _, rfl, rfl, _, rfl, rfl, rfl⟩
  have hsearches : ∀ action ∈ failedPassActions ++ .record 0 ⟨none, none⟩ :: retriedActions,
      ∀ available, action = .refresh available none → available = {"search"} := by
    simp [failedPassActions, failedRunActions, retriedActions, passActions]
  obtain ⟨hnone, hlaunched⟩ := Gather.armed_retry_launched searchGather 1 .empty 0
    (Recording.initial "s").state
    (fun _ action _ hsplit gather _ =>
      retriesReady_searchGather gather (hsearches action (by
        rw [hsplit]
        exact List.mem_append_right _ List.mem_cons_self)))
    hbefore hnext hlast hdone
  refine ⟨before, after, last, hbefore, hnext, hlast, hnone, ?_⟩
  rcases hlaunched run hrecorded (by
    rintro action haction deadline rfl
    simp [retriedActions, passActions] at haction) with ⟨revision, hsome, -⟩ | ⟨-, hrelaunched⟩
  · rw [hadvanced] at hsome
    cases hsome
  · rw [hid] at hrelaunched
    exact hrelaunched

end Orcastork
