import Orcastork.Library.Workers
import Orcastork.Orchestrator.ArchiveAgreement
import Orcastork.Orchestrator.GatherSteps

/-!
# The tasks of a gather

The tasks, the register of the running ones and the completions on their way are a shop of workers
(`Gather.shop`), and every step of a gather that launches no operator twice is one of the shop's.
So a completion finds its run in the register, and who waits for the registered tasks waits for all.

The gather waits for them before it ends, unless the first merge of its final drain raises
(`no_task_outlives`).
-/

namespace Orcastork

/-- A task as a worker: it reports when its completion is on the queue. -/
def TaskStatus.worker : TaskStatus → Workers.Status
  | .running => .working
  | .completing _ => .working
  | .finished => .reported
  | .cancelled => .silent
  | .vanished => .silent

theorem TaskStatus.worker_eq_working {status : TaskStatus} :
  status.worker = .working ↔ status.live = true
  := by
  cases status with
  | running => exact ⟨fun _ => rfl, fun _ => rfl⟩
  | completing error => exact ⟨fun _ => rfl, fun _ => rfl⟩
  | finished => exact ⟨nofun, nofun⟩
  | cancelled => exact ⟨nofun, nofun⟩
  | vanished => exact ⟨nofun, nofun⟩

/-- The completions the loop has in hand. -/
def GatherPhase.held : GatherPhase → List Completion
  | .merging batch => completions batch
  | .recording completions => completions
  | _ => []

/-- The emissions the loop has in hand. -/
def GatherPhase.inHand : GatherPhase → List QueuedEmission
  | .merging batch => emissions batch
  | _ => []

/-- The loop has no signal in hand. -/
structure GatherPhase.EmptyHanded (phase : GatherPhase) : Prop where
  held : phase.held = []
  inHand : phase.inHand = []

theorem emissions_append (first second : List Signal) :
  emissions (first ++ second) = emissions first ++ emissions second
  := by
  induction first with
  | nil => rfl
  | cons signal first ih =>
      cases signal with
      | emitted queued => rw [List.cons_append, emissions, emissions, ih, List.cons_append]
      | completed completion => rw [List.cons_append, emissions, emissions, ih]

theorem completions_append (first second : List Signal) :
  completions (first ++ second) = completions first ++ completions second
  := by
  induction first with
  | nil => rfl
  | cons signal first ih =>
      cases signal with
      | emitted queued => rw [List.cons_append, completions, completions, ih]
      | completed completion => rw [List.cons_append, completions, completions, ih, List.cons_append]

namespace Gather

variable {P C O : Type} {services : GatherServices P C O} {gather gather' : Gather O}

/-- The completions that are on their way to be recorded. -/
def pending (gather : Gather O) : List Completion :=
  gather.phase.held ++ completions gather.queue

/-- The tasks as workers. -/
def shop (services : GatherServices P C O) (gather : Gather O) : Workers.Shop OperatorId where
  workers := gather.tasks.map (fun task =>
    (services.operatorId task.operator, task.status.worker))
  register := gather.memory.running.map RunningRecord.task
  reports := gather.pending.map Completion.operatorId

/-! ### What the loop does to the register -/

/-- A run is taken out of the register, and counted. -/
def countRun (gather : Gather O) (operatorId : OperatorId) : OperatorMemory :=
  { gather.memory with
    running := gather.memory.running.erase operatorId
    runs := gather.memory.runs.set operatorId ((gather.memory.runs.get? operatorId).getD 0 + 1)
    breaker := gather.memory.breaker.recordRun operatorId }

/-- A run that is recorded is counted; and its attempts are forgotten, or, as it failed and its
breaker is not tripped, its retry is armed as long as attempts are left. -/
theorem remember_cases (completion : Completion) :
  gather.remember services completion
      = (false,
        { gather.countRun completion.operatorId with
          failedAttempts := gather.memory.failedAttempts.erase completion.operatorId })
    ∨ ∃ policy, retryOf services completion.operatorId = some policy
      ∧ completion.error.isSome = true
      ∧ (gather.memory.breaker.recordRun completion.operatorId).isTripped completion.operatorId
        = false
      ∧ (gather.memory.failedAttempts.get? completion.operatorId).getD 0 + 1 < policy.maxAttempts
      ∧ gather.remember services completion
        = (true,
          { gather.countRun completion.operatorId with
            failedAttempts := gather.memory.failedAttempts.set completion.operatorId
              ((gather.memory.failedAttempts.get? completion.operatorId).getD 0 + 1)
            retries := gather.memory.retries.schedule completion.operatorId gather.now
              (some (policy.backoffDelays
                ((gather.memory.failedAttempts.get? completion.operatorId).getD 0 + 1 - 1))) })
  := by
  rw [remember]
  split
  · exact Or.inl rfl
  · rename_i error herror
    simp only
    generalize hscheduled : gather.maybeScheduleRetry _ completion.operatorId
      (retryOf services completion.operatorId) _ = scheduled
    unfold maybeScheduleRetry at hscheduled
    split at hscheduled
    · rw [← hscheduled]
      exact Or.inl rfl
    · rename_i policy hpolicy
      split at hscheduled
      · rw [← hscheduled]
        exact Or.inl rfl
      · rename_i hagain
        rw [not_or, not_le, Bool.not_eq_true] at hagain
        obtain ⟨hattempts, huntripped⟩ := hagain
        rw [← hscheduled]
        right
        use policy, hpolicy, Option.isSome_of_eq_some herror, huntripped, hattempts
        rfl

/-- A recorded completion is taken out of the register. -/
theorem running_remember (completion : Completion) :
  (gather.remember services completion).2.running
    = gather.memory.running.erase completion.operatorId
  := by
  rcases remember_cases completion with h | ⟨policy, -, -, -, -, h⟩ <;>
  · rw [h]
    rfl

/-- The retries that are armed as a run is recorded are those that were, and its own if it will be
retried. -/
theorem isScheduled_retries_remember (completion : Completion) (operatorId : OperatorId) :
  (gather.remember services completion).2.retries.isScheduled operatorId
    = ((gather.remember services completion).1 && decide (completion.operatorId = operatorId)
      || gather.memory.retries.isScheduled operatorId)
  := by
  rcases @remember_cases P C O services gather completion with h | ⟨policy, -, -, -, -, h⟩
  · rw [h]
    rfl
  · rw [h]
    apply DebounceController.isScheduled_schedule

/-- A completion that could be recorded was in the register, and is no longer. -/
theorem Records.running {now : Timestamp} {faults : RecordFaults} {completion : Completion}
    {result : Except OrchestrationError Unit}
    (h : Records services gather now faults completion result gather')
    {record : RunningRecord}
    (hrunning : gather.memory.running.get? completion.operatorId = some record) :
  gather'.memory.running = gather.memory.running.erase completion.operatorId
    ∧ gather'.tasks = gather.tasks ∧ gather'.queue = gather.queue
  := by
  cases h with
  | unknown hnone =>
      rw [hrunning] at hnone
      cases hnone
  | auditRaised _ _ => exact ⟨running_remember completion, rfl, rfl⟩
  | watermarkRaised _ _ _ => exact ⟨running_remember completion, rfl, rfl⟩
  | retried _ _ _ => exact ⟨running_remember completion, rfl, rfl⟩
  | advanced _ _ _ _ => exact ⟨running_remember completion, rfl, rfl⟩

/-- The register after a launch. -/
theorem shop_launch (available : Finset CapabilityId) (observed : Revision)
    (runnable : Runnable O) :
  (launch services available observed gather runnable).shop services
    = (gather.shop services).start (services.operatorId runnable.operator)
  := by
  rw [shop, shop, Workers.Shop.start, Workers.Shop.mk.injEq]
  refine ⟨?_, ?_, rfl⟩
  · rw [launch, List.map_append]
    rfl
  · rw [launch, Dict.map_set, List.length_map]

/-- The launches of a pass, each under a name that is free by then. -/
theorem tracked_launches {available : Finset CapabilityId} {observed : Revision}
    {runnables : List (Runnable O)} (h : Workers.Tracked (gather.shop services))
    (hnodup : (runnables.map (fun runnable => services.operatorId runnable.operator)).Nodup)
    (hfree : ∀ runnable ∈ runnables,
      gather.memory.running.get? (services.operatorId runnable.operator) = none) :
  Workers.Tracked ((runnables.foldl (launch services available observed) gather).shop services)
  := by
  induction runnables generalizing gather with
  | nil => exact h
  | cons runnable runnables ih =>
      rw [List.map_cons, List.nodup_cons] at hnodup
      obtain ⟨hfirst, hrest⟩ := List.forall_mem_cons.mp hfree
      rw [List.foldl_cons]
      apply ih _ hnodup.2
      · intro other hother
        have hne : services.operatorId runnable.operator ≠ services.operatorId other.operator := by
          intro heq
          apply hnodup.1
          rw [heq]
          exact List.mem_map_of_mem hother
        rw [launch, Dict.get?_set_of_ne _ hne]
        exact hrest other hother
      · rw [shop_launch]
        apply h.start
        rw [shop, Dict.get?_map, hfirst]
        rfl

/-! ### What a task does to the shop -/

/-- The worker of a task. -/
theorem workers_getElem? {i : ℕ} {task : OperatorTask O} (htask : gather.tasks[i]? = some task) :
  (gather.shop services).workers[i]?
    = some (services.operatorId task.operator, task.status.worker)
  := by
  rw [shop, List.getElem?_map, htask]
  rfl

/-- A task that gets on within its fault boundary is the same worker. -/
theorem shop_stopped {i : ℕ} {task : OperatorTask O} (error : Option String)
    (htask : gather.tasks[i]? = some task) (hrunning : task.status = .running) :
  (gather.setStatus i task (.completing error)).shop services = gather.shop services
  := by
  have hworker := @workers_getElem? P C O services gather i task htask
  rw [hrunning] at hworker
  rw [shop, Workers.Shop.mk.injEq]
  refine ⟨?_, rfl, rfl⟩
  rw [setStatus, List.map_set]
  apply List.ext_getElem?
  intro j
  rw [List.getElem?_set]
  split
  · rename_i hij
    rw [← hij, hworker, if_pos (by
      rw [List.length_map]
      exact (List.getElem?_eq_some_iff.mp htask).1)]
    rfl
  · rfl

/-- A task whose completion is on the queue has reported. -/
theorem shop_completed {i : ℕ} {task : OperatorTask O} (error : Option String)
    (runSeconds : Monotonic) :
  ((gather.setStatus i task .finished).enqueue
      (.completed ⟨services.operatorId task.operator, error, runSeconds⟩)).shop services
    = (gather.shop services).report (services.operatorId task.operator) i
  := by
  rw [shop, shop, Workers.Shop.report, Workers.Shop.mk.injEq]
  refine ⟨?_, rfl, ?_⟩
  · rw [setStatus, enqueue, List.map_set]
    rfl
  · rw [pending, pending, enqueue, completions_append, ← List.append_assoc, List.map_append]
    rfl

/-- A task that ends without a completion is a worker that ends in silence. -/
theorem shop_silenced {i : ℕ} {task : OperatorTask O} {status : TaskStatus}
    (hstatus : status.worker = .silent) :
  (gather.setStatus i task status).shop services
    = (gather.shop services).silence (services.operatorId task.operator) i
  := by
  rw [shop, shop, Workers.Shop.silence, Workers.Shop.mk.injEq]
  refine ⟨?_, rfl, rfl⟩
  rw [setStatus, List.map_set, hstatus]

/-- The loop is between two batches. -/
theorem Moves.emptyHanded {action : GatherAction} {phase : GatherPhase}
    (h : Moves gather action phase) :
  gather.phase.EmptyHanded ∧ phase.EmptyHanded
  := by
  cases h with
  | renewed hphase _ => rw [hphase]; exact ⟨⟨rfl, rfl⟩, rfl, rfl⟩
  | expired hphase _ => rw [hphase]; exact ⟨⟨rfl, rfl⟩, rfl, rfl⟩
  | drained hphase => rw [hphase]; exact ⟨⟨rfl, rfl⟩, rfl, rfl⟩
  | woken hphase _ => rw [hphase]; exact ⟨⟨rfl, rfl⟩, rfl, rfl⟩
  | waited hphase => rw [hphase]; exact ⟨⟨rfl, rfl⟩, rfl, rfl⟩
  | parked hphase _ => rw [hphase]; exact ⟨⟨rfl, rfl⟩, rfl, rfl⟩
  | awaited hphase _ => rw [hphase]; exact ⟨⟨rfl, rfl⟩, rfl, rfl⟩
  | raised _ hphase =>
      rcases hphase with hphase | hphase | hphase | ⟨parkAt, hphase⟩
      · rw [hphase]; exact ⟨⟨rfl, rfl⟩, rfl, rfl⟩
      · rw [hphase]; exact ⟨⟨rfl, rfl⟩, rfl, rfl⟩
      · rw [hphase]; exact ⟨⟨rfl, rfl⟩, rfl, rfl⟩
      · rw [hphase]; exact ⟨⟨rfl, rfl⟩, rfl, rfl⟩

/-- Tasks and register as they were, and no completion that was not there. -/
theorem tracked_of_sublist (h : Workers.Tracked (gather.shop services))
    (htasks : gather'.tasks = gather.tasks)
    (hrunning : gather'.memory.running = gather.memory.running)
    (hpending : gather'.pending.Sublist gather.pending) :
  Workers.Tracked (gather'.shop services)
  := by
  have hshop : gather'.shop services
      = (gather.shop services).lose (gather'.pending.map Completion.operatorId) := by
    rw [shop, htasks, hrunning]
    rfl
  rw [hshop]
  exact h.lose (hpending.map _)

/-- A batch that is merged is recorded next. -/
theorem held_recordRest (completions : List Completion) :
  (gather.recordRest completions).phase.held = completions
  := by
  rw [recordRest]
  cases completions with
  | nil => rfl
  | cons completion completions => rfl

/-! ### Steps -/

/-- The operators of a gather are listed once. -/
def ListedOnce (services : GatherServices P C O) : Prop := services.gathering.Nodup

variable [DecidableEq P] [DecidableEq C]

/-- A pass launches no operator twice. -/
def LaunchesOnce (services : GatherServices P C O) (gather : Gather O) : GatherAction → Prop
  | .refresh available _ =>
    ∀ view plan, services.plan gather.state.mirror gather.memory view available gather.now = .ok plan →
      (plan.runnable.map (fun runnable => services.operatorId runnable.operator)).Nodup
  | _ => True

/-- The plan of a pass, if it is reached, launches no operator twice. -/
def PlansOnce (services : GatherServices P C O) (gather : Gather O) : GatherAction → Prop
  | .refresh available _ =>
    ∀ view plan, gather.state.mirror.snapshot gather.state.mirror.sessionId = .ok view →
      services.plan gather.state.mirror gather.memory view available gather.now = .ok plan →
      (plan.runnable.map (fun runnable => services.operatorId runnable.operator)).Nodup
  | _ => True

theorem LaunchesOnce.plansOnce {action : GatherAction} (h : LaunchesOnce services gather action) :
  PlansOnce services gather action
  := by
  cases action with
  | refresh available error => exact fun view plan _ => h view plan
  | _ => trivial

/-- The operators of a plan have ids of their own, if they are listed once. -/
theorem launchesOnce_of_listedOnce (hlisted : ListedOnce services) (gather : Gather O)
    (action : GatherAction) :
  LaunchesOnce services gather action
  := by
  cases action with
  | refresh available error =>
      intro view plan hplan
      have hnodup := (GatherServices.plan_runnable hplan).1.nodup hlisted
      have hmap := hnodup.map services.classes.operatorId_injective
      rw [List.map_map] at hmap
      exact hmap
  | _ => trivial

omit [DecidableEq C] in
/-- A pass ends with nothing in hand. -/
theorem emptyHanded_nextPhase (view : DataPointView) (soonestDue : Option Monotonic) :
  (gather.nextPhase services view soonestDue).EmptyHanded
  := by
  unfold nextPhase
  split
  · exact ⟨rfl, rfl⟩
  · split
    · exact ⟨rfl, rfl⟩
    · split
      · exact ⟨rfl, rfl⟩
      · exact ⟨rfl, rfl⟩

omit [DecidableEq P] [DecidableEq C] in
/-- The next completion in hand is the next report. -/
theorem reports_recording {completion : Completion} {rest : List Completion}
    (hphase : gather.phase = .recording (completion :: rest)) :
  (gather.shop services).reports
    = completion.operatorId :: (rest ++ completions gather.queue).map Completion.operatorId
  := by
  rw [shop, pending, hphase]
  rfl

omit [DecidableEq P] [DecidableEq C] in
/-- A completion that is recorded, or whose recording raises late, is collected. -/
theorem shop_recorded (h : Workers.Tracked (gather.shop services)) {now : Timestamp}
    {faults : RecordFaults} {completion : Completion} {rest : List Completion}
    {result : Except OrchestrationError Unit}
    (hphase : gather.phase = .recording (completion :: rest))
    (hrecords : Records services gather now faults completion result gather') :
  (gather'.recordRest rest).shop services
    = (gather.shop services).collect completion.operatorId
        ((rest ++ completions gather.queue).map Completion.operatorId)
  := by
  obtain ⟨⟨i, hregister⟩, -⟩ := h.collect (reports_recording hphase)
  rw [shop, Dict.get?_map, Option.map_eq_some_iff] at hregister
  obtain ⟨record, hrunning, -⟩ := hregister
  obtain ⟨herased, htasks, hqueue⟩ := hrecords.running hrunning
  rw [shop, shop, Workers.Shop.collect, Workers.Shop.mk.injEq]
  refine ⟨?_, ?_, ?_⟩
  · rw [recordRest, htasks]
  · rw [recordRest, herased, Dict.map_erase]
  · rw [pending, held_recordRest, recordRest, hqueue]

/-- A step is one of the shop, or a few. -/
theorem tracked_step {action : GatherAction} (hlaunches : PlansOnce services gather action)
    (h : Workers.Tracked (gather.shop services)) (hstep : Steps services gather action gather') :
  Workers.Tracked (gather'.shop services)
  := by
  cases hstep with
  | elapse span => exact h
  | audit _ _ => exact h
  | stopped error htask hrunning =>
      rw [shop_stopped error htask hrunning]
      exact h
  | emitted _ _ _ _ =>
      refine tracked_of_sublist h rfl rfl ?_
      rw [pending, pending, enqueue, completions_append, completions, completions, List.append_nil]
  | completed htask hcompleting _ =>
      rw [shop_completed]
      apply h.report
      rw [workers_getElem? htask, hcompleting]
      rfl
  | vanished htask hlive =>
      rw [shop_silenced rfl]
      apply h.silence
      rw [workers_getElem? htask, TaskStatus.worker_eq_working.mpr hlive]
  | cancelled htask _ hlive =>
      rw [shop_silenced rfl]
      apply h.silence
      rw [workers_getElem? htask, TaskStatus.worker_eq_working.mpr hlive]
  | seeded _ _ => exact h
  | seedRaised hphase _ =>
      refine tracked_of_sublist h rfl rfl ?_
      rw [pending, pending, hphase]
      exact List.Sublist.refl _
  | begun _ _ => exact Workers.Tracked.initial
  | beginRaised _ _ =>
      refine tracked_of_sublist h rfl rfl ?_
      apply List.sublist_append_right
  | delivered _ _ => exact h
  | deliverRaised _ _ =>
      refine tracked_of_sublist h rfl rfl ?_
      apply List.sublist_append_right
  | @passed available view observed plan hphase hview _ hplan =>
      have hlaunched : Workers.Tracked
          ((gather.launchAll services available observed plan).shop services) := by
        refine tracked_launches ?_ (hlaunches view plan hview hplan) ?_
        · exact h
        · intro runnable hrunnable
          exact ((GatherServices.plan_runnable hplan).2 runnable hrunnable).idle
      refine tracked_of_sublist hlaunched rfl rfl ?_
      rw [pending, (emptyHanded_nextPhase view plan.soonestDue).held]
      exact List.sublist_append_right _ _
  | passRaised _ _ =>
      refine tracked_of_sublist h rfl rfl ?_
      apply List.sublist_append_right
  | taken hphase =>
      refine tracked_of_sublist h rfl rfl ?_
      rw [pending, pending, hphase]
      exact (List.append_nil _).symm ▸ List.Sublist.refl _
  | merged hphase _ _ =>
      refine tracked_of_sublist h rfl rfl ?_
      rw [pending, held_recordRest, pending, hphase]
      exact List.Sublist.refl _
  | mergeRaised _ _ =>
      refine tracked_of_sublist h rfl rfl ?_
      apply List.sublist_append_right
  | @recorded now faults completion rest recorded hphase hrecords =>
      obtain ⟨-, htracked⟩ := h.collect (reports_recording hphase)
      rw [shop_recorded h hphase hrecords]
      exact htracked
  | @recordRaised now faults completion rest recorded error hphase hrecords =>
      obtain ⟨-, htracked⟩ := h.collect (reports_recording hphase)
      rw [← shop_recorded h hphase hrecords] at htracked
      refine tracked_of_sublist htracked rfl rfl ?_
      rw [pending, pending, held_recordRest]
      exact List.sublist_append_right _ _
  | drained _ _ _ =>
      refine tracked_of_sublist h rfl rfl ?_
      have hheld : ∀ exit, (if gather.memory.running.keys.isEmpty = true then
          GatherPhase.drainingAgain exit else .cancelling exit).held = [] := by
        intro exit
        split
        · rfl
        · rfl
      rw [pending, hheld]
      apply List.nil_sublist
  | drainedAgain _ _ _ =>
      refine tracked_of_sublist h rfl rfl ?_
      apply List.nil_sublist
  | drainRaised _ _ =>
      refine tracked_of_sublist h rfl rfl ?_
      apply List.nil_sublist
  | moved hmoves =>
      obtain ⟨hbefore, hafter⟩ := hmoves.emptyHanded
      refine tracked_of_sublist h rfl rfl ?_
      rw [pending, pending, hbefore.held, hafter.held]
  | disposed _ _ => exact h
  | contributed _ _ => exact h

/-! ### The end of a gather -/

/-- No task can run. -/
def Quiet (gather : Gather O) : Prop := ∀ task ∈ gather.tasks, task.status.live = false

/-- The tasks have been waited for, or none was created yet. -/
def awaitedIn : GatherPhase → Bool
  | .ready => true
  | .drainingAgain _ => true
  | .ended _ => true
  | _ => false

/-- The tasks and the register belong together, and past the wait no task can run. -/
structure Awaited (services : GatherServices P C O) (gather : Gather O) : Prop where
  tracked : Workers.Tracked (gather.shop services)
  quiet : awaitedIn gather.phase = true → gather.Quiet

/-- A first merge of the final drain that raises finds no task that can run. -/
def CleanupReached (services : GatherServices P C O) (gather : Gather O) : GatherAction → Prop
  | .drain now faults =>
    ∀ exit, gather.phase = .draining exit →
      (gather.mergeBatch services now faults (emissions gather.queue)).1 = .ok () ∨ gather.Quiet
  | _ => True

namespace Awaited

omit [DecidableEq P] [DecidableEq C] in
/-- If no registered task can run, none can. -/
theorem quiet_of_registered (h : Workers.Tracked (gather.shop services))
    (hregistered : ∀ i ∈ gather.registered, ∀ task, gather.tasks[i]? = some task →
      task.status.live = false) :
  gather.Quiet
  := by
  have hidle := h.idle (by
    intro name i hi other hworking
    rw [shop, Dict.get?_map, Option.map_eq_some_iff] at hi
    obtain ⟨record, hrecord, rfl⟩ := hi
    rw [shop, List.getElem?_map, Option.map_eq_some_iff] at hworking
    obtain ⟨task, htask, hworker⟩ := hworking
    have hlive := TaskStatus.worker_eq_working.mp (Prod.mk.inj hworker).2
    have hmem : record.task ∈ gather.registered :=
      List.mem_map_of_mem (Dict.mem_values_iff.mpr ⟨name, hrecord⟩)
    rw [hregistered record.task hmem task htask] at hlive
    cases hlive)
  intro task htask
  have hworker := hidle _ (List.mem_map_of_mem htask)
  rw [Ne, TaskStatus.worker_eq_working, Bool.not_eq_true] at hworker
  exact hworker

omit [DecidableEq P] [DecidableEq C] in
theorem start {epoch : Epoch} {caps : Dict OperatorId ℤ} {now : Monotonic}
    {session : MergeState} :
  Awaited services (Gather.start services epoch caps now session)
  := ⟨Workers.Tracked.initial, fun _ => nofun⟩

omit [DecidableEq C] in
/-- A pass goes on from its launches, not past the wait. -/
theorem awaitedIn_nextPhase (view : DataPointView) (soonestDue : Option Monotonic) :
  awaitedIn (gather.nextPhase services view soonestDue) = false
  := by
  unfold nextPhase
  split
  · rfl
  · split
    · rfl
    · split
      · rfl
      · rfl

/-- A step past which the cleanup is reached keeps what is awaited. -/
theorem step {action : GatherAction} (h : Awaited services gather)
    (hlaunches : PlansOnce services gather action) (hreached : CleanupReached services gather action)
    (hstep : Steps services gather action gather') :
  Awaited services gather'
  := by
  have htracked' := tracked_step hlaunches h.tracked hstep
  refine ⟨htracked', ?_⟩
  intro hpast
  -- Where a task can run, the loop is not past the wait.
  have hlive : ∀ {i : ℕ} {task : OperatorTask O}, gather.tasks[i]? = some task →
      task.status.live = true → awaitedIn gather.phase = false := by
    intro i task htask hlive
    rw [← Bool.not_eq_true]
    intro hawaited
    rw [h.quiet hawaited task (List.mem_of_getElem? htask)] at hlive
    cases hlive
  cases hstep with
  | elapse span => exact h.quiet hpast
  | audit _ _ => exact h.quiet hpast
  | stopped error htask hrunning =>
      change awaitedIn gather.phase = true at hpast
      rw [hlive htask (by rw [hrunning]; rfl)] at hpast
      cases hpast
  | emitted htask hrunning _ _ =>
      change awaitedIn gather.phase = true at hpast
      rw [hlive htask (by rw [hrunning]; rfl)] at hpast
      cases hpast
  | completed htask hcompleting _ =>
      change awaitedIn gather.phase = true at hpast
      rw [hlive htask (by rw [hcompleting]; rfl)] at hpast
      cases hpast
  | vanished htask htaskLive =>
      change awaitedIn gather.phase = true at hpast
      rw [hlive htask htaskLive] at hpast
      cases hpast
  | cancelled htask _ htaskLive =>
      change awaitedIn gather.phase = true at hpast
      rw [hlive htask htaskLive] at hpast
      cases hpast
  | seeded _ _ => exact h.quiet hpast
  | seedRaised hphase _ =>
      apply h.quiet
      rw [hphase]
      rfl
  | begun _ _ => cases hpast
  | beginRaised hphase _ =>
      apply h.quiet
      revert hphase
      cases gather.phase with
      | ready => exact fun _ => rfl
      | ended exit => exact fun _ => rfl
      | _ =>
          intros
          contradiction
  | delivered hphase _ =>
      change awaitedIn gather.phase = true at hpast
      rw [hphase] at hpast
      cases hpast
  | deliverRaised _ _ => cases hpast
  | passed _ _ _ _ =>
      rw [awaitedIn_nextPhase] at hpast
      cases hpast
  | passRaised _ _ => cases hpast
  | taken _ => cases hpast
  | @merged _ _ batch _ _ _ _ _ =>
      rw [recordRest] at hpast
      cases hcompletions : completions batch with
      | nil =>
          rw [hcompletions] at hpast
          cases hpast
      | cons completion rest =>
          rw [hcompletions] at hpast
          cases hpast
  | mergeRaised _ _ => cases hpast
  | @recorded _ _ _ rest _ _ _ =>
      rw [recordRest] at hpast
      cases rest with
      | nil => cases hpast
      | cons completion rest => cases hpast
  | recordRaised _ _ => cases hpast
  | drained _ _ _ =>
      rename_i now faults exit emitted state hphase hnormalized hmerge
      by_cases hempty : gather.memory.running.keys.isEmpty = true
      · apply quiet_of_registered htracked'
        intro i hi
        have hnone : gather.registered = [] := by
          rw [registered, Dict.values]
          rw [List.isEmpty_iff, Dict.keys, List.map_eq_nil_iff] at hempty
          rw [hempty]
          rfl
        change i ∈ gather.registered at hi
        rw [hnone] at hi
        cases hi
      · simp only [hempty] at hpast
        cases hpast
  | drainedAgain hphase _ _ =>
      apply h.quiet
      rw [hphase]
      rfl
  | drainRaised hphase hraised =>
      rename_i now faults exit state error
      rcases hphase with hphase | hphase
      · rcases hreached exit hphase with hmerged | hquiet
        · exact absurd hmerged hraised.mergeBatch_ne_ok
        · exact hquiet
      · apply h.quiet
        rw [hphase]
        rfl
  | moved hmoves =>
      cases hmoves with
      | awaited hphase hended => exact quiet_of_registered htracked' hended
      | renewed _ _ => cases hpast
      | expired _ _ => cases hpast
      | drained _ => cases hpast
      | woken _ _ => cases hpast
      | waited _ => cases hpast
      | parked _ _ => cases hpast
      | raised _ _ => cases hpast
  | disposed _ _ => exact h.quiet hpast
  | contributed _ _ => exact h.quiet hpast

end Awaited

/-- A drain that raises ends the gather with its tasks as they were. -/
theorem ended_of_raised {now : Timestamp} {faults : MergeFaults} {exit : GatherExit}
    (hphase : gather.phase = .draining exit)
    (hraises : (gather.mergeBatch services now faults (emissions gather.queue)).1 ≠ .ok ()) :
  ∃ gather' error, gather.step services (.drain now faults) = some gather'
    ∧ gather'.phase = .ended (.raised error) ∧ gather'.tasks = gather.tasks
  := by
  have hstep : gather.step services (.drain now faults)
      = some (gather.drainQueue services now faults
          (if gather.memory.running.keys.isEmpty then .drainingAgain exit
            else .cancelling exit)) := by
    change gather.loopStep services (.drain now faults) = _
    unfold loopStep
    simp only [hphase]
  rcases @steps_drainQueue P C O services gather now faults
    (if gather.memory.running.keys.isEmpty then .drainingAgain exit else .cancelling exit)
    with ⟨emitted, state, hnormalized, hmerge, -⟩ | ⟨error, state, -, heq⟩
  · apply absurd _ hraises
    rw [mergeBatch, hnormalized]
    simp only [hmerge]
  · rw [heq] at hstep
    exact ⟨_, error, hstep, rfl, rfl⟩

/-- A gather that launches no operator twice in a pass has waited for every task it created
whenever it ends, exactly if no first merge of its final drain raises while a task can run. -/
theorem no_task_outlives (services : GatherServices P C O) (epoch : Epoch)
    (caps : Dict OperatorId ℤ) (now : Monotonic) (session : MergeState)
    (actions : List GatherAction)
    (hlaunches : TransitionSystem.Always (Gather.step services) (LaunchesOnce services)
      (.start services epoch caps now session) actions) :
  (∀ taken rest gather exit, actions = taken ++ rest →
      TransitionSystem.run (Gather.step services) (.start services epoch caps now session) taken
        = some gather →
      gather.phase = .ended exit → gather.Quiet)
    ↔ TransitionSystem.Always (Gather.step services) (CleanupReached services)
        (.start services epoch caps now session) actions
  := by
  constructor
  · intro h before action after hsplit gather hrun
    cases action with
    | drain now' faults =>
        intro exit hphase
        by_contra hnot
        rw [not_or] at hnot
        obtain ⟨gather', error, hstep, hended, htasks⟩ := ended_of_raised hphase hnot.1
        apply hnot.2
        have hquiet := h (before ++ [.drain now' faults]) after gather' (.raised error)
          (by rw [hsplit, List.append_assoc]; rfl)
          (by
            apply TransitionSystem.run_append_eq_some.mpr
            use gather, hrun
            apply TransitionSystem.run_cons_eq_some.mpr
            exact ⟨gather', hstep, rfl⟩)
          hended
        rw [Quiet, htasks] at hquiet
        exact hquiet
    | _ => trivial
  · rintro hreached taken rest gather exit rfl hrun hphase
    have halways : TransitionSystem.Always (Gather.step services)
        (fun gather action => LaunchesOnce services gather action
          ∧ CleanupReached services gather action)
        (.start services epoch caps now session) taken :=
      TransitionSystem.always_and (TransitionSystem.always_prefix hlaunches)
        (TransitionSystem.always_prefix hreached)
    have hawaited : Awaited services gather := by
      apply TransitionSystem.run_invariant_of_always _ Awaited.start halways hrun
      intro gather action gather' h hstep hnext
      exact h.step hstep.1.plansOnce hstep.2 (steps_of_step hnext)
    apply hawaited.quiet
    rw [hphase]
    rfl

end Gather

/-! ### A gather of texts -/

/-- Classes that are called what they are, none below another. -/
def textClasses : Classes DataPointType CapabilityId OperatorId where
  dataPoints := .flat DataPointType
  abstractTypes := ∅
  registeredLeaves := []
  qualname := id
  capabilities := .flat CapabilityId
  hasCapabilityId := fun _ => true
  capabilityId := id
  capabilityQualname := id
  operatorId := id
  operatorId_injective := Function.injective_id

/-- Operators that need nothing and run once, and are tried again if they have a retry policy. -/
def textGather (operators : List OperatorId) (retry : Option RetryPolicy) :
    GatherServices DataPointType CapabilityId OperatorId where
  classes := textClasses
  flow :=
    { operators := operators
      capabilities := []
      completesWhen := none
      dependsOn := fun _ => ∅
      uses := fun _ => ∅
      produces := fun _ => ∅
      requires := fun _ => ∅
      policy := fun _ => ⟨false, .addedOrUpdated, none⟩
      aggregator := fun _ => none
      capabilityDependsOn := fun _ => ∅
      capabilityRequires := fun _ => ∅ }
  leafClass := id
  gathering := operators
  debounce := fun _ => none
  retry := fun _ => retry
  parkAfter := none
  queueSize := 4
  validate := fun _ value => .ok value
  merging := textServices
  operatorDetail := fun info => info.operatorId

/-- The merge that a higher epoch fences. -/
def fencedFaults : MergeFaults := ⟨some (.staleEpoch "epoch 1 is stale (current 2)"), none, none⟩

/-- An operator emits twice. A higher epoch takes over: the merge of the first emission is fenced,
and so is the merge of the second, which the final drain finds on the queue. -/
def fencedActions : List GatherAction :=
  [.begin' 100, .renew none, .inboxDone none, .refresh ∅ none,
    .emit 0 ⟨"note", .str "a"⟩ 0, .take, .emit 0 ⟨"note", .str "b"⟩ 0,
    .merge 0 fencedFaults, .drain 0 fencedFaults]

/-- The operator is still running as the gather raises. -/
theorem task_outlives_fenced :
  ¬∀ gather exit,
    TransitionSystem.run (Gather.step (textGather ["reader"] none))
        (.start (textGather ["reader"] none) 1 .empty 0 (Recording.initial "s").state)
        fencedActions
      = some gather →
    gather.phase = .ended exit → gather.Quiet
  := by
  intro h
  have hquiet := h _ _ rfl rfl
  have hlive := hquiet _ List.mem_cons_self
  cases hlive

theorem listedOnce_reader :
  Gather.ListedOnce (textGather ["reader"] none)
  := List.nodup_singleton "reader"

instance decidableQuiet (gather : Gather OperatorId) : Decidable gather.Quiet :=
  inferInstanceAs (Decidable (∀ task ∈ gather.tasks, task.status.live = false))

/-- A drain that goes through reaches its cleanup. -/
def reachesCleanup (services : GatherServices DataPointType CapabilityId OperatorId)
    (gather : Gather OperatorId) : GatherAction → Bool
  | .drain now faults =>
    match (gather.mergeBatch services now faults (emissions gather.queue)).1 with
    | .ok () => true
    | .error _ => decide gather.Quiet
  | _ => true

theorem cleanupReached_of_reachesCleanup
    {services : GatherServices DataPointType CapabilityId OperatorId}
    {gather : Gather OperatorId} {action : GatherAction}
    (h : reachesCleanup services gather action = true) :
  Gather.CleanupReached services gather action
  := by
  cases action with
  | drain now faults =>
      intro exit _
      rw [reachesCleanup] at h
      split at h
      · rename_i hok
        left
        apply hok
      · right
        apply of_decide_eq_true h
  | _ => trivial

/-- The deadline passes with the operator still there, and its cancelled task is waited for. -/
def cutActions : List GatherAction :=
  [.begin' 100, .renew none, .inboxDone none, .refresh ∅ none,
    .emit 0 ⟨"note", .str "a"⟩ 0, .take, .merge 0 .none, .elapse 200, .renew none,
    .emit 0 ⟨"note", .str "b"⟩ 0, .drain 0 .none, .cancelled 0, .awaited, .drain 0 .none]

/-- No drain raises, and the gather ends with no task that can run. -/
theorem no_task_outlives_cut :
  ∃ gather, TransitionSystem.run (Gather.step (textGather ["reader"] none))
        (.start (textGather ["reader"] none) 1 .empty 0 (Recording.initial "s").state) cutActions
      = some gather
    ∧ gather.phase = .ended .deadline ∧ gather.tasks ≠ [] ∧ gather.Quiet
  := by
  obtain ⟨gather, hrun, hphase, htasks⟩ : ∃ gather,
      TransitionSystem.run (Gather.step (textGather ["reader"] none))
          (.start (textGather ["reader"] none) 1 .empty 0 (Recording.initial "s").state) cutActions
        = some gather
      ∧ gather.phase = .ended .deadline ∧ gather.tasks ≠ [] :=
    ⟨_, rfl, rfl, List.cons_ne_nil _ _⟩
  have hreached : TransitionSystem.Always (Gather.step (textGather ["reader"] none))
      (fun gather action => reachesCleanup (textGather ["reader"] none) gather action = true)
      (.start (textGather ["reader"] none) 1 .empty 0 (Recording.initial "s").state) cutActions := by
    decide
  use gather, hrun, hphase, htasks
  apply (Gather.no_task_outlives (textGather ["reader"] none) 1 .empty 0
    (Recording.initial "s").state cutActions
    (fun _ action _ _ gather _ =>
      Gather.launchesOnce_of_listedOnce listedOnce_reader gather action)).mpr
    (fun before action after hsplit gather hbefore =>
      cleanupReached_of_reachesCleanup (hreached before action after hsplit gather hbefore))
    cutActions [] gather .deadline (List.append_nil _).symm hrun hphase

end Orcastork
