import Orcastork.Orchestrator.Completions
import Orcastork.Orchestrator.DueOperators

/-!
# One run of an operator at a time

The operators that are due in a pass are launched before the register knows of any of them. If none
of them is listed twice (`DueOnce`), at most one task of an operator can run (`OneInFlight`) and
every completion finds its run in the register (`Matched`). If besides no completion is lost on its
way (`KeepsCompletions`, `CleanupReached`), then every task of a gather is recorded exactly once, or
cancelled by its final drain (`RecordedOnce`).

The list of operators is taken as it is: of one that is listed twice, two tasks run at a time, and
the recording of the second raises.
-/

namespace Orcastork

namespace Gather

variable {P C O : Type} {services : GatherServices P C O} {gather gather' : Gather O}

/-! ### The properties of a state -/

/-- At most one task of each operator can run. -/
def OneInFlight (services : GatherServices P C O) (gather : Gather O) : Prop :=
  ∀ (i j : ℕ) (task other : OperatorTask O),
    gather.tasks[i]? = some task → gather.tasks[j]? = some other →
    services.operatorId task.operator = services.operatorId other.operator →
    task.status.live = true → other.status.live = true → i = j

/-- A completion on its way is of a task that the register holds. -/
def Matched (services : GatherServices P C O) (gather : Gather O) : Prop :=
  ∀ completion ∈ gather.pending, ∃ record task,
    gather.memory.running.get? completion.operatorId = some record
      ∧ gather.tasks[record.task]? = some task ∧ task.status = .finished
      ∧ services.operatorId task.operator = completion.operatorId

/-- The operators whose tasks are finished, one for each task. -/
def finishedIds (services : GatherServices P C O) (gather : Gather O) : List OperatorId :=
  (gather.tasks.filter (fun task => decide (task.status = .finished))).map
    (fun task => services.operatorId task.operator)

/-- Of the tasks of a gather that began, those that are finished are those that were recorded since,
or are about to be, once each; the others are cancelled, in the final drain, before it ends. -/
structure RecordedOnce (services : GatherServices P C O) (begun gather : Gather O) : Prop where
  recorded : ∃ mine, gather.recorded = begun.recorded ++ mine
    ∧ (finishedIds services gather).Perm
      ((mine.map RecordedRun.completion ++ gather.pending).map Completion.operatorId)
  cancelled : ∀ task ∈ gather.tasks, task.status = .cancelled → gather.phase.exit?.isSome = true
  ended : ∀ exit, gather.phase = .ended exit → gather.pending = []
    ∧ ∀ task ∈ gather.tasks, task.status = .finished ∨ task.status = .cancelled

/-! ### The conditions on a step -/

section Conditions

variable [DecidableEq P] [DecidableEq C]

/-- No operator that is due in a pass is listed twice. -/
def DueOnce (services : GatherServices P C O) (gather : Gather O) : GatherAction → Prop
  | .refresh available _ =>
    ∀ view, gather.state.mirror.snapshot gather.state.mirror.sessionId = .ok view →
      (services.gathering.filter (services.isDue gather.state.mirror gather.memory view available
        gather.now)).Nodup
  | _ => True

omit [DecidableEq P] [DecidableEq C] in
/-- No completion is lost: no task ends outside of its fault boundary, a merge that raises has no
completion behind it, no port call of a recording raises, and a final drain finds no completion. -/
def KeepsCompletions (services : GatherServices P C O) (gather : Gather O) : GatherAction → Prop
  | .vanish _ => False
  | .merge now faults =>
    ∀ batch, gather.phase = .merging batch →
      completions batch = []
        ∨ (gather.mergeBatch services now faults (emissions batch)).1 = .ok ()
  | .record _ faults =>
    ∀ completion rest, gather.phase = .recording (completion :: rest) →
      faults.audit = none ∧ gather.state.audit.maxEpoch ≤ gather.epoch
        ∧ ((gather.remember services completion).1 = true
          ∨ faults.watermark = none ∧ gather.state.store.maxEpoch ≤ gather.epoch)
  | .drain _ _ =>
    ∀ exit, gather.phase = .draining exit ∨ gather.phase = .drainingAgain exit →
      completions gather.queue = []
  | _ => True

/-- Operators that are listed once are due once. -/
theorem dueOnce_of_listedOnce (hlisted : ListedOnce services) (gather : Gather O)
    (action : GatherAction) :
  DueOnce services gather action
  := by
  cases action with
  | refresh available error => exact fun view _ => hlisted.filter _
  | _ => trivial

/-- What is due once is launched once. -/
theorem DueOnce.plansOnce {action : GatherAction} (h : DueOnce services gather action) :
  PlansOnce services gather action
  := by
  cases action with
  | refresh available error =>
      intro view plan hview hplan
      have hnodup := h view hview
      rw [← GatherServices.runnable_eq_filter hplan] at hnodup
      have hmap := hnodup.map services.classes.operatorId_injective
      rw [List.map_map] at hmap
      exact hmap
  | _ => trivial

omit [DecidableEq P] [DecidableEq C] in
/-- No completion is lost, and no task is left behind. -/
def LosesNothing (services : GatherServices P C O) (gather : Gather O) (action : GatherAction) :
    Prop :=
  KeepsCompletions services gather action ∧ CleanupReached services gather action

end Conditions

/-! ### One task at a time -/

/-- The register holds at most one task of each operator, and all that can run. -/
theorem oneInFlight_of_tracked (h : Workers.Tracked (gather.shop services)) :
  OneInFlight services gather
  := by
  intro i j task other htask hother hsame hlive hliveOther
  have hworking := @workers_getElem? P C O services gather i task htask
  have hworkingOther := @workers_getElem? P C O services gather j other hother
  rw [TaskStatus.worker_eq_working.mpr hlive] at hworking
  rw [TaskStatus.worker_eq_working.mpr hliveOther, ← hsame] at hworkingOther
  have hregister := h.working hworking
  rw [h.working hworkingOther] at hregister
  exact (Option.some.inj hregister).symm

theorem TaskStatus.eq_finished {status : TaskStatus} (h : status.worker = .reported) :
  status = .finished
  := by
  cases status with
  | finished => rfl
  | _ => cases h

/-- What has reported is in the register, and finished. -/
theorem matched_of_tracked (h : Workers.Tracked (gather.shop services)) :
  Matched services gather
  := by
  intro completion hcompletion
  obtain ⟨i, hregister, hreported⟩ := h.reported completion.operatorId
    (List.mem_map_of_mem hcompletion)
  rw [shop, Dict.get?_map, Option.map_eq_some_iff] at hregister
  obtain ⟨record, hrunning, rfl⟩ := hregister
  rw [shop, List.getElem?_map, Option.map_eq_some_iff] at hreported
  obtain ⟨task, htask, hworker⟩ := hreported
  obtain ⟨hsame, hstatus⟩ := Prod.mk.inj hworker
  exact ⟨record, task, hrunning, htask, TaskStatus.eq_finished hstatus, hsame⟩

/-! ### Every completion is recorded -/

/-- Since some runs were recorded, the completions of the finished tasks were, or are on their way. -/
def Balanced (services : GatherServices P C O) (earlier : List RecordedRun) (gather : Gather O) :
    Prop :=
  ∃ mine, gather.recorded = earlier ++ mine
    ∧ Workers.Balanced (gather.shop services)
      (mine.map (fun run => run.completion.operatorId))

/-- A completion that is recorded is recorded once. -/
theorem Records.recorded_eq {now : Timestamp} {faults : RecordFaults} {completion : Completion}
    (h : Records services gather now faults completion (.ok ()) gather') :
  ∃ run, run.completion = completion ∧ gather'.recorded = gather.recorded ++ [run]
  := by
  cases h with
  | retried _ _ _ => exact ⟨_, rfl, rfl⟩
  | advanced _ _ _ _ => exact ⟨_, rfl, rfl⟩

/-- The recording of a completion leaves the tasks as they are. -/
theorem Records.tasks_eq {now : Timestamp} {faults : RecordFaults} {completion : Completion}
    {result : Except OrchestrationError Unit}
    (h : Records services gather now faults completion result gather') :
  gather'.tasks = gather.tasks
  := by
  cases h with
  | unknown _ => rfl
  | auditRaised _ _ => rfl
  | watermarkRaised _ _ _ => rfl
  | retried _ _ _ => rfl
  | advanced _ _ _ _ => rfl

/-- A recording of which no port call raises does not raise. -/
theorem recordCompletion_eq_ok {now : Timestamp} {faults : RecordFaults} {completion : Completion}
    {record : RunningRecord}
    (hrunning : gather.memory.running.get? completion.operatorId = some record)
    (hfault : faults.audit = none) (haudit : gather.state.audit.maxEpoch ≤ gather.epoch)
    (hwatermark : (gather.remember services completion).1 = true
      ∨ faults.watermark = none ∧ gather.state.store.maxEpoch ≤ gather.epoch) :
  (gather.recordCompletion services now faults completion).1 = .ok ()
  := by
  have happend : ∀ run : RecordedRun,
      gather.state.audit.append (gather.operatorRow services now run)
        = .ok ⟨gather.state.audit.committed ++ [gather.operatorRow services now run],
            gather.epoch⟩ := by
    intro run
    exact if_neg (Nat.not_lt.mpr haudit)
  rw [recordCompletion, hrunning]
  simp only [hfault, happend, advanceWatermark, recordedRun]
  split
  · rfl
  · rename_i revision hrevision
    rcases hwatermark with hretrying | ⟨hfault', hstore⟩
    · rw [if_pos hretrying] at hrevision
      cases hrevision
    · rw [hfault']
      simp only [SessionState.setWatermark_of_le hstore]

/-- A recording of which no port call raises does not leave. -/
theorem not_recordRaised [DecidableEq P] [DecidableEq C]
    (htracked : Workers.Tracked (gather.shop services)) {now : Timestamp} {faults : RecordFaults}
    (hkeeps : KeepsCompletions services gather (.record now faults)) {completion : Completion}
    {rest : List Completion} (hphase : gather.phase = .recording (completion :: rest))
    {error : OrchestrationError} :
  gather.step services (.record now faults) ≠ some (gather'.leave error)
  := by
  intro hnext
  obtain ⟨hfault, haudit, hwatermark⟩ := hkeeps completion rest hphase
  obtain ⟨record, -, hrunning, -⟩ := matched_of_tracked htracked completion (by
    rw [pending, hphase]
    exact List.mem_append_left _ List.mem_cons_self)
  have hok := @recordCompletion_eq_ok P C O services gather now faults completion record hrunning
    hfault haudit hwatermark
  change gather.loopStep services (.record now faults) = _ at hnext
  unfold loopStep at hnext
  simp only [hphase, Option.some.injEq] at hnext
  generalize gather.recordCompletion services now faults completion = result at hok hnext
  obtain ⟨result, recorded⟩ := result
  cases hok
  have hleft := congrArg Gather.phase hnext
  rw [orLeave, recordRest] at hleft
  cases rest with
  | nil => cases hleft
  | cons next rest => cases hleft

/-- Launches leave the loop where it is. -/
theorem phase_launches (available : Finset CapabilityId) (observed : Revision)
    (runnables : List (Runnable O)) :
  (runnables.foldl (launch services available observed) gather).phase = gather.phase
  := by
  induction runnables generalizing gather with
  | nil => rfl
  | cons runnable runnables ih => exact ih

/-- The tasks that have reported are those that are finished. -/
theorem reported_shop (services : GatherServices P C O) (gather : Gather O) :
  (gather.shop services).reported = finishedIds services gather
  := by
  rw [Workers.Shop.reported, shop, finishedIds]
  induction gather.tasks with
  | nil => rfl
  | cons task tasks ih =>
      rw [List.map_cons, List.filter_cons]
      cases hstatus : task.status with
      | finished =>
          rw [if_pos (decide_eq_true rfl), List.map_cons, ← ih]
          rfl
      | _ =>
          rw [if_neg (by rw [decide_eq_true_eq]; intro h; cases h), ← ih]
          rfl

namespace Balanced

variable {earlier : List RecordedRun}

/-- As long as the tasks, the completions on their way and the recorded runs are the same. -/
theorem of_same (h : Balanced services earlier gather) (htasks : gather'.tasks = gather.tasks)
    (hpending : gather'.pending = gather.pending) (hrecorded : gather'.recorded = gather.recorded) :
  Balanced services earlier gather'
  := by
  obtain ⟨mine, hmine, hbalanced⟩ := h
  use mine
  rw [hrecorded]
  use hmine
  rw [Workers.Balanced, Workers.Shop.reported, shop, htasks, hpending]
  exact hbalanced

/-- The launches of a pass. -/
theorem launches (h : Balanced services earlier gather) (available : Finset CapabilityId)
    (observed : Revision) (runnables : List (Runnable O)) :
  Balanced services earlier (runnables.foldl (launch services available observed) gather)
  := by
  induction runnables generalizing gather with
  | nil => exact h
  | cons runnable runnables ih =>
      apply ih
      obtain ⟨mine, hmine, hbalanced⟩ := h
      use mine, hmine
      rw [shop_launch]
      exact hbalanced.start _

variable [DecidableEq P] [DecidableEq C]

/-- A gather that begins has no tasks yet. -/
theorem begun {deadline : Monotonic}
    (hnext : gather.step services (.begin' deadline) = some gather')
    (hhead : gather'.phase = .head) :
  Balanced services gather'.recorded gather'
  := by
  have hbegun : gather' = gather.beginGather services deadline := by
    change gather.loopStep services (.begin' deadline) = _ at hnext
    simp only [loopStep] at hnext
    split at hnext
    · exact (Option.some.inj hnext).symm
    · exact (Option.some.inj hnext).symm
    · exact (Option.some.inj hnext).symm
    · cases hnext
  rw [hbegun, beginGather] at hhead ⊢
  split at hhead
  · cases hhead
  · exact ⟨[], (List.append_nil _).symm, List.Perm.nil⟩

/-- A step of a gather that loses no completion, and begins no other gather. -/
theorem step (h : Balanced services earlier gather) (htracked : Workers.Tracked (gather.shop services))
    {action : GatherAction} (hkeeps : KeepsCompletions services gather action)
    (hbegins : ∀ deadline, action ≠ .begin' deadline)
    (hnext : gather.step services action = some gather') :
  Balanced services earlier gather'
  := by
  cases steps_of_step hnext with
  | elapse span => exact h
  | audit _ _ => exact h
  | stopped error htask hrunning =>
      obtain ⟨mine, hmine, hbalanced⟩ := h
      use mine, hmine
      rw [shop_stopped error htask hrunning]
      exact hbalanced
  | emitted _ _ _ _ =>
      refine h.of_same rfl ?_ rfl
      rw [pending, pending, enqueue, completions_append, completions, completions, List.append_nil]
  | completed htask hcompleting _ =>
      obtain ⟨mine, hmine, hbalanced⟩ := h
      use mine, hmine
      rw [shop_completed]
      apply hbalanced.report
      rw [workers_getElem? htask, hcompleting]
      rfl
  | vanished _ _ => exact hkeeps.elim
  | cancelled htask _ hlive =>
      obtain ⟨mine, hmine, hbalanced⟩ := h
      use mine, hmine
      rw [shop_silenced rfl]
      apply hbalanced.silence
      rw [workers_getElem? htask, TaskStatus.worker_eq_working.mpr hlive]
  | seeded _ _ => exact h
  | seedRaised hphase _ =>
      refine h.of_same rfl ?_ rfl
      rw [pending, pending, hphase]
      rfl
  | begun _ _ => exact absurd rfl (hbegins _)
  | beginRaised _ _ => exact absurd rfl (hbegins _)
  | delivered _ _ => exact h
  | deliverRaised hphase _ =>
      refine h.of_same rfl ?_ rfl
      rw [pending, pending, hphase]
      rfl
  | @passed available view observed plan hphase _ _ _ =>
      have hlaunched : Balanced services earlier
          (gather.launchAll services available observed plan) := by
        apply launches
        exact h.of_same rfl rfl rfl
      have hrefreshing : (gather.launchAll services available observed plan).phase
          = .refreshing := by
        rw [launchAll, phase_launches]
        exact hphase
      refine hlaunched.of_same rfl ?_ rfl
      rw [pending, (emptyHanded_nextPhase view plan.soonestDue).held, pending, hrefreshing]
      rfl
  | passRaised hphase _ =>
      refine h.of_same rfl ?_ rfl
      rw [pending, pending, hphase]
      rfl
  | taken hphase =>
      refine h.of_same rfl ?_ rfl
      rw [pending, pending, hphase]
      exact List.append_nil _
  | merged hphase _ _ =>
      refine h.of_same rfl ?_ rfl
      rw [pending, held_recordRest, pending, hphase]
      rfl
  | mergeRaised hphase hraised =>
      refine h.of_same rfl ?_ rfl
      rw [pending, pending, hphase]
      rcases hkeeps _ hphase with hnone | hmerged
      · rw [GatherPhase.held, hnone]
        rfl
      · exact absurd hmerged hraised.mergeBatch_ne_ok
  | recorded hphase hrecords =>
      obtain ⟨mine, hmine, hbalanced⟩ := h
      obtain ⟨run, rfl, hrecorded⟩ := hrecords.recorded_eq
      have hmap : (mine ++ [run]).map (fun run => run.completion.operatorId)
          = mine.map (fun run => run.completion.operatorId) ++ [run.completion.operatorId] :=
        List.map_append
      use mine ++ [run]
      constructor
      · rw [← List.append_assoc, ← hmine]
        exact hrecorded
      · rw [shop_recorded htracked hphase hrecords, hmap]
        exact hbalanced.collect (reports_recording hphase)
  | recordRaised hphase hrecords => exact absurd hnext (not_recordRaised htracked hkeeps hphase)
  | @drained now faults exit emitted state hphase _ _ =>
      refine h.of_same rfl ?_ rfl
      have hheld : (if gather.memory.running.keys.isEmpty = true then
          GatherPhase.drainingAgain exit else .cancelling exit).held = [] := by
        split
        · rfl
        · rfl
      rw [pending, pending, hheld, hphase, hkeeps exit (Or.inl hphase)]
      rfl
  | drainedAgain hphase _ _ =>
      refine h.of_same rfl ?_ rfl
      rw [pending, pending, hphase, hkeeps _ (Or.inr hphase)]
      rfl
  | drainRaised hphase _ =>
      refine h.of_same rfl ?_ rfl
      rw [pending, pending, hkeeps _ hphase]
      rcases hphase with hphase | hphase
      · rw [hphase]
        rfl
      · rw [hphase]
        rfl
  | moved hmoves =>
      obtain ⟨hbefore, hafter⟩ := hmoves.emptyHanded
      refine h.of_same rfl ?_ rfl
      rw [pending, pending, hbefore.held, hafter.held]
  | disposed _ _ => exact h
  | contributed _ _ => exact h

end Balanced

/-! ### No task is lost -/

/-- No task has vanished, tasks are only cancelled in a final drain, and outside of a gather the
queue is empty. -/
structure Tidy (gather : Gather O) : Prop where
  vanished : ∀ task ∈ gather.tasks, task.status ≠ .vanished
  cancelled : ∀ task ∈ gather.tasks, task.status = .cancelled → gather.phase.exit?.isSome = true
  outside : gather.phase.outside = true → gather.queue = []

namespace Tidy

/-- A task gets on that does not vanish. -/
theorem setStatus (h : Tidy gather) {i : ℕ} {task : OperatorTask O} {status : TaskStatus}
    (hvanished : status ≠ .vanished)
    (hcancelled : status = .cancelled → gather.phase.exit?.isSome = true) :
  Tidy (gather.setStatus i task status)
  := by
  constructor
  · intro other hother
    rcases List.mem_or_eq_of_mem_set hother with hother | rfl
    · exact h.vanished other hother
    · exact hvanished
  · intro other hother
    rcases List.mem_or_eq_of_mem_set hother with hother | rfl
    · exact h.cancelled other hother
    · exact hcancelled
  · exact h.outside

/-- A signal is put on the queue within a gather. -/
theorem enqueue (h : Tidy gather) (hinside : gather.phase.outside = false) (signal : Signal) :
  Tidy (gather.enqueue signal)
  := by
  use h.vanished, h.cancelled
  intro houtside
  change gather.phase.outside = true at houtside
  rw [hinside] at houtside
  cases houtside

/-- The loop goes on, or starts to leave. -/
theorem of_loop (h : Tidy gather) (htasks : gather'.tasks = gather.tasks)
    (hloop : gather.phase.exit? = none)
    (houtside : gather'.phase.outside = true → gather'.queue = []) :
  Tidy gather'
  := by
  refine ⟨?_, ?_, houtside⟩
  · rw [htasks]
    exact h.vanished
  · rw [htasks]
    intro task htask hcancelled
    have hleaving := h.cancelled task htask hcancelled
    rw [hloop] at hleaving
    cases hleaving

/-- The loop goes on within the gather. -/
theorem of_inside (h : Tidy gather) (htasks : gather'.tasks = gather.tasks)
    (hloop : gather.phase.exit? = none) (hinside : gather'.phase.outside = false) :
  Tidy gather'
  := by
  apply h.of_loop htasks hloop
  intro houtside
  rw [hinside] at houtside
  cases houtside

/-- The loop is leaving, or ends. -/
theorem of_exit (h : Tidy gather) (htasks : gather'.tasks = gather.tasks)
    (hexit : gather'.phase.exit?.isSome = true)
    (houtside : gather'.phase.outside = true → gather'.queue = []) :
  Tidy gather'
  := by
  refine ⟨?_, fun _ _ _ => hexit, houtside⟩
  rw [htasks]
  exact h.vanished

/-- The launches of a pass. -/
theorem launches (h : Tidy gather) (available : Finset CapabilityId) (observed : Revision)
    (runnables : List (Runnable O)) :
  Tidy (runnables.foldl (launch services available observed) gather)
  := by
  induction runnables generalizing gather with
  | nil => exact h
  | cons runnable runnables ih =>
      apply ih
      constructor
      · rw [launch, List.forall_mem_append]
        exact ⟨h.vanished, List.forall_mem_singleton.mpr (by rintro ⟨⟩)⟩
      · rw [launch, List.forall_mem_append]
        exact ⟨h.cancelled, List.forall_mem_singleton.mpr (by rintro ⟨⟩)⟩
      · exact h.outside

theorem start {epoch : Epoch} {caps : Dict OperatorId ℤ} {now : Monotonic}
    {session : MergeState} :
  Tidy (Gather.start services epoch caps now session)
  := ⟨nofun, nofun, fun _ => rfl⟩

variable [DecidableEq P] [DecidableEq C]

omit [DecidableEq C] in
/-- A pass goes on within the gather. -/
theorem outside_nextPhase (view : DataPointView) (soonestDue : Option Monotonic) :
  (gather.nextPhase services view soonestDue).outside = false
  := by
  unfold nextPhase
  split
  · rfl
  · split
    · rfl
    · split
      · rfl
      · rfl

/-- A step of a gather in which no task vanishes. -/
theorem step (h : Tidy gather) (hawaited : Awaited services gather) {action : GatherAction}
    (hkeeps : KeepsCompletions services gather action)
    (hstep : Steps services gather action gather') :
  Tidy gather'
  := by
  cases hstep with
  | elapse span => exact ⟨h.vanished, h.cancelled, h.outside⟩
  | audit _ _ => exact ⟨h.vanished, h.cancelled, h.outside⟩
  | stopped _ _ _ => exact h.setStatus (by rintro ⟨⟩) (by rintro ⟨⟩)
  | emitted htask hrunning _ _ => exact h.enqueue (hawaited.inside htask (by rw [hrunning]; rfl)) _
  | @completed i task error runSeconds htask hcompleting _ =>
      have hfinished : Tidy (gather.setStatus i task .finished) :=
        h.setStatus (by rintro ⟨⟩) (by rintro ⟨⟩)
      exact hfinished.enqueue (hawaited.inside htask (by rw [hcompleting]; rfl)) _
  | vanished _ _ => exact hkeeps.elim
  | cancelled _ hphase _ =>
      refine h.setStatus (by rintro ⟨⟩) ?_
      intro _
      rw [hphase]
      rfl
  | seeded _ _ => exact ⟨h.vanished, h.cancelled, h.outside⟩
  | seedRaised hphase _ =>
      refine h.of_loop rfl (by rw [hphase]; rfl) ?_
      intro _
      exact h.outside (by rw [hphase]; rfl)
  | begun _ _ =>
      constructor
      · intros
        contradiction
      · intros
        contradiction
      · rintro ⟨⟩
  | beginRaised hphase _ =>
      refine h.of_exit rfl rfl ?_
      intro _
      apply h.outside
      revert hphase
      cases gather.phase with
      | ready => exact fun _ => rfl
      | ended exit => exact fun _ => rfl
      | _ =>
          intros
          contradiction
  | delivered _ _ => exact ⟨h.vanished, h.cancelled, h.outside⟩
  | deliverRaised hphase _ => exact h.of_inside rfl (by rw [hphase]; rfl) rfl
  | @passed available view observed plan hphase _ _ _ =>
      have hlaunched : Tidy (gather.launchAll services available observed plan) := by
        apply launches
        exact ⟨h.vanished, h.cancelled, h.outside⟩
      refine hlaunched.of_inside rfl ?_ ?_
      · rw [launchAll, phase_launches]
        exact congrArg GatherPhase.exit? hphase
      · apply outside_nextPhase
  | passRaised hphase _ => exact h.of_inside rfl (by rw [hphase]; rfl) rfl
  | taken hphase => exact h.of_inside rfl (by rw [hphase]; rfl) rfl
  | @merged _ _ batch _ _ hphase _ _ =>
      refine h.of_inside rfl (by rw [hphase]; rfl) ?_
      rw [recordRest]
      split
      · rfl
      · rfl
  | mergeRaised hphase _ => exact h.of_inside rfl (by rw [hphase]; rfl) rfl
  | @recorded _ _ _ rest _ hphase hrecords =>
      refine h.of_inside hrecords.tasks_eq (by rw [hphase]; rfl) ?_
      rw [recordRest]
      split
      · rfl
      · rfl
  | recordRaised hphase hrecords => exact h.of_inside hrecords.tasks_eq (by rw [hphase]; rfl) rfl
  | drained _ _ _ =>
      refine h.of_exit rfl ?_ ?_
      · simp only
        split
        · rfl
        · rfl
      · exact fun _ => rfl
  | drainedAgain _ _ _ => exact h.of_exit rfl rfl (fun _ => rfl)
  | drainRaised _ _ => exact h.of_exit rfl rfl (fun _ => rfl)
  | moved hmoves =>
      cases hmoves with
      | renewed hphase _ => exact h.of_inside rfl (by rw [hphase]; rfl) rfl
      | expired hphase _ => exact h.of_inside rfl (by rw [hphase]; rfl) rfl
      | drained hphase => exact h.of_inside rfl (by rw [hphase]; rfl) rfl
      | woken hphase _ => exact h.of_inside rfl (by rw [hphase]; rfl) rfl
      | waited hphase => exact h.of_inside rfl (by rw [hphase]; rfl) rfl
      | parked hphase _ => exact h.of_inside rfl (by rw [hphase]; rfl) rfl
      | awaited hphase _ => exact h.of_exit rfl rfl (by rintro ⟨⟩)
      | raised _ _ => exact h.of_exit rfl rfl (by rintro ⟨⟩)
  | disposed _ _ => exact ⟨h.vanished, h.cancelled, h.outside⟩
  | contributed _ _ => exact ⟨h.vanished, h.cancelled, h.outside⟩

end Tidy

/-! ### Runs -/

section Runs

variable [DecidableEq P] [DecidableEq C]

variable (services : GatherServices P C O) (epoch : Epoch) (caps : Dict OperatorId ℤ)
  (now : Monotonic) (session : MergeState) {actions : List GatherAction}

variable (hdue : TransitionSystem.Always (Gather.step services) (DueOnce services)
  (.start services epoch caps now session) actions)

include hdue

/-- After a run in which what is due is listed once, the tasks and the register belong together. -/
theorem tracked_run
    (hrun : TransitionSystem.run (Gather.step services) (.start services epoch caps now session)
      actions = some gather) :
  Workers.Tracked (gather.shop services)
  := by
  apply TransitionSystem.run_invariant_of_always
    (P := fun gather => Workers.Tracked (gather.shop services)) _ Workers.Tracked.initial hdue hrun
  intro gather action gather' htracked hdue hnext
  exact tracked_step hdue.plansOnce htracked (steps_of_step hnext)

variable (hkeeps : TransitionSystem.Always (Gather.step services) (LosesNothing services)
  (.start services epoch caps now session) actions)

include hkeeps

/-- What holds of the tasks after a run that loses nothing. -/
theorem tidy_run
    (hrun : TransitionSystem.run (Gather.step services) (.start services epoch caps now session)
      actions = some gather) :
  Awaited services gather ∧ Tidy gather
  := by
  apply TransitionSystem.run_invariant_of_always _ ⟨Awaited.start, Tidy.start⟩
    (TransitionSystem.always_and hdue hkeeps) hrun
  rintro gather action gather' ⟨hawaited, htidy⟩ ⟨hdue, hkeeps, hreached⟩ hnext
  have hstep := steps_of_step hnext
  exact ⟨hawaited.step hdue.plansOnce hreached hstep, htidy.step hawaited hkeeps hstep⟩

/-- Since a gather began, the completions of its finished tasks were recorded. -/
theorem balanced_run {taken rest : List GatherAction} {deadline : Monotonic} {begun : Gather O}
    (hsplit : actions = (taken ++ [.begin' deadline]) ++ rest)
    (hbegins : ∀ action ∈ rest, ∀ deadline, action ≠ .begin' deadline)
    (hbegun : TransitionSystem.run (Gather.step services) (.start services epoch caps now session)
      (taken ++ [.begin' deadline]) = some begun)
    (hhead : begun.phase = .head)
    (hrun : TransitionSystem.run (Gather.step services) begun rest = some gather) :
  Balanced services begun.recorded gather
  := by
  rw [hsplit] at hdue hkeeps
  have htracked := tracked_run services epoch caps now session
    (TransitionSystem.always_prefix hdue) hbegun
  have halways := TransitionSystem.always_and
    (TransitionSystem.always_and (TransitionSystem.always_suffix hdue hbegun)
      (TransitionSystem.always_suffix hkeeps hbegun))
    (TransitionSystem.always_of_forall_mem hbegins)
  have hinvariant : Workers.Tracked (gather.shop services)
      ∧ Balanced services begun.recorded gather := by
    apply TransitionSystem.run_invariant_of_always
      (P := fun gather => Workers.Tracked (gather.shop services)
        ∧ Balanced services begun.recorded gather) _ _ halways hrun
    · rintro gather action gather' ⟨htracked, hbalanced⟩ ⟨⟨hdue, hkeeps, -⟩, hbegins⟩ hnext
      exact ⟨tracked_step hdue.plansOnce htracked (steps_of_step hnext),
        hbalanced.step htracked hkeeps hbegins hnext⟩
    · use htracked
      obtain ⟨before, -, hlast⟩ := TransitionSystem.run_append_eq_some.mp hbegun
      obtain ⟨begun', hnext, hnil⟩ := TransitionSystem.run_cons_eq_some.mp hlast
      cases hnil
      exact Balanced.begun hnext hhead
  exact hinvariant.2

end Runs

/-- A step without faults of a gather in which nothing failed loses no completion. -/
theorem Sound.keepsCompletions (h : Sound services gather) {action : GatherAction}
    (hfaults : action.FaultFree) (hdrops : DropsNothing gather action)
    (hvanishes : ∀ i, action ≠ .vanish i) :
  KeepsCompletions services gather action
  := by
  obtain ⟨-, hmergeFaults, hrecordFaults⟩ := hfaults
  cases action with
  | vanish i => exact absurd rfl (hvanishes i)
  | merge now faults =>
      have hnone : faults = .none := hmergeFaults
      subst hnone
      intro batch hphase
      right
      generalize hmerged : gather.mergeBatch services now .none (emissions batch) = merged
      obtain ⟨result, merged⟩ := merged
      cases result with
      | ok _ => rfl
      | error error =>
          obtain ⟨state, -, hraises⟩ := mergeBatch_eq_error hmerged
          apply absurd hraises
          apply h.inStep.not_mergeRaises
          intro queued hqueued
          apply h.orderly.normal
          rw [hphase]
          exact List.mem_append_left _ hqueued
  | record now faults =>
      cases hrecordFaults
      intro completion rest hphase
      exact ⟨rfl, h.inStep.current.audit, Or.inr ⟨rfl, h.inStep.current.store⟩⟩
  | drain now faults =>
      intro exit hphase
      exact h.completions_eq_nil hdrops hphase
  | _ => trivial

/-- A run without faults loses nothing, as long as no drain at the deadline finds a completion and
no task vanishes. -/
theorem losesNothing_of_faultFree [DecidableEq P] [DecidableEq C] (services : GatherServices P C O)
    {session : MergeState} (hwellFormed : session.store.WellFormed) {epoch : Epoch}
    (hcurrent : session.Current epoch) (caps : Dict OperatorId ℤ) (now : Monotonic)
    {actions : List GatherAction} (hfaults : ∀ action ∈ actions, action.FaultFree)
    (hnormal : ∀ action ∈ actions, action.Normal services.validate)
    (hvanishes : ∀ action ∈ actions, ∀ i, action ≠ .vanish i)
    (hlaunches : TransitionSystem.Always (Gather.step services) (LaunchesOnce services)
      (.start services epoch caps now session) actions)
    (hdrops : TransitionSystem.Always (Gather.step services) DropsNothing
      (.start services epoch caps now session) actions) :
  TransitionSystem.Always (Gather.step services) (LosesNothing services)
    (.start services epoch caps now session) actions
  := by
  intro before action after hsplit gather hrun
  have hdrop := hdrops before action after hsplit gather hrun
  rw [hsplit] at hfaults hnormal hvanishes hlaunches
  rw [List.forall_mem_append, List.forall_mem_cons] at hfaults hnormal hvanishes
  have hsound := sound_run services hwellFormed hcurrent caps now hfaults.1 hnormal.1
    (TransitionSystem.always_prefix hlaunches) hrun
  exact ⟨hsound.keepsCompletions hfaults.2.1 hdrop hvanishes.2.1, hsound.cleanupReached hfaults.2.1⟩

/-- In every run in which no operator that is due is listed twice, at most one task of each operator
can run at a time, and every completion finds its run in the register. If besides nothing is lost,
each task of a gather is recorded once, or cancelled before the gather ends. -/
theorem one_run_each [DecidableEq P] [DecidableEq C] (services : GatherServices P C O)
    (epoch : Epoch) (caps : Dict OperatorId ℤ) (now : Monotonic) (session : MergeState)
    {actions : List GatherAction}
    (hdue : TransitionSystem.Always (Gather.step services) (DueOnce services)
      (.start services epoch caps now session) actions)
    {gather : Gather O}
    (hrun : TransitionSystem.run (Gather.step services) (.start services epoch caps now session)
      actions = some gather) :
  OneInFlight services gather ∧ Matched services gather
    ∧ (TransitionSystem.Always (Gather.step services) (LosesNothing services)
        (.start services epoch caps now session) actions →
      ∀ taken deadline rest begun, actions = (taken ++ [.begin' deadline]) ++ rest →
        (∀ action ∈ rest, ∀ deadline, action ≠ .begin' deadline) →
        TransitionSystem.run (Gather.step services) (.start services epoch caps now session)
          (taken ++ [.begin' deadline]) = some begun →
        begun.phase = .head → RecordedOnce services begun gather)
  := by
  have htracked := tracked_run services epoch caps now session hdue hrun
  refine ⟨oneInFlight_of_tracked htracked, matched_of_tracked htracked, ?_⟩
  intro hkeeps taken deadline rest begun hsplit hbegins hbegun hhead
  obtain ⟨hawaited, htidy⟩ := tidy_run services epoch caps now session hdue hkeeps hrun
  obtain ⟨mine, hmine, hbalanced⟩ := balanced_run services epoch caps now session hdue hkeeps
    hsplit hbegins hbegun hhead (by
      rw [hsplit] at hrun
      obtain ⟨begun', hbegun', hrest⟩ := TransitionSystem.run_append_eq_some.mp hrun
      rw [hbegun] at hbegun'
      cases hbegun'
      exact hrest)
  refine ⟨⟨mine, hmine, ?_⟩, htidy.cancelled, ?_⟩
  · rw [Workers.Balanced, reported_shop] at hbalanced
    rw [List.map_append, List.map_map]
    exact hbalanced
  · intro exit hphase
    constructor
    · rw [pending, hphase, htidy.outside (by rw [hphase]; rfl)]
      rfl
    · intro task htask
      have hquiet := hawaited.quiet (by rw [hphase]; rfl) task htask
      have hvanished := htidy.vanished task htask
      revert hquiet hvanished
      cases task.status with
      | finished => exact fun _ _ => Or.inl rfl
      | cancelled => exact fun _ _ => Or.inr rfl
      | vanished => exact fun _ hvanished => absurd rfl hvanished
      | running =>
          intros
          contradiction
      | completing error =>
          intros
          contradiction

end Gather

/-! ### A reader that is listed twice -/

/-- The first pass launches a reader for each time it is listed. -/
def launchedTwiceActions : List GatherAction :=
  [.begin' 100, .renew none, .inboxDone none, .refresh ∅ none]

/-- Both readers are done, and their completions are recorded one after the other. -/
def recordedTwiceActions : List GatherAction :=
  launchedTwiceActions ++ [.finish 0, .complete 0 3, .finish 1, .complete 1 3, .take,
    .merge 0 .none, .record 0 ⟨none, none⟩, .record 0 ⟨none, none⟩]

/-- Of a reader that is listed twice, two tasks run at a time, and the second completion finds no
run in the register: its recording raises. -/
theorem listed_twice_runs_twice :
  (¬∀ gather,
    TransitionSystem.run (Gather.step (textGather ["reader", "reader"] none))
        (.start (textGather ["reader", "reader"] none) 1 .empty 0 (Recording.initial "s").state)
        launchedTwiceActions
      = some gather →
    Gather.OneInFlight (textGather ["reader", "reader"] none) gather)
    ∧ ∃ gather,
      TransitionSystem.run (Gather.step (textGather ["reader", "reader"] none))
          (.start (textGather ["reader", "reader"] none) 1 .empty 0 (Recording.initial "s").state)
          recordedTwiceActions
        = some gather
      ∧ gather.phase = .draining (.raised (.keyError "reader"))
  := by
  constructor
  · intro h
    have hsame := h _ rfl 0 1 _ _ rfl rfl rfl rfl rfl
    cases hsame
  · exact ⟨_, rfl, rfl⟩

/-- The one reader of a quiet run is recorded once. -/
theorem one_run_each_quiescent :
  ∃ begun gather,
    TransitionSystem.run (Gather.step (textGather ["reader"] none))
        (.start (textGather ["reader"] none) 1 .empty 0 (Recording.initial "s").state)
        quiescentActions
      = some gather
    ∧ gather.phase = .ended .quiescent
    ∧ Gather.OneInFlight (textGather ["reader"] none) gather
    ∧ Gather.Matched (textGather ["reader"] none) gather
    ∧ Gather.RecordedOnce (textGather ["reader"] none) begun gather
  := by
  obtain ⟨gather, hrun, hphase⟩ : ∃ gather,
      TransitionSystem.run (Gather.step (textGather ["reader"] none))
          (.start (textGather ["reader"] none) 1 .empty 0 (Recording.initial "s").state)
          quiescentActions
        = some gather
      ∧ gather.phase = .ended .quiescent := ⟨_, rfl, rfl⟩
  have hkeeps := Gather.losesNothing_of_faultFree (textGather ["reader"] none)
    SessionState.initial_wellFormed current_initial .empty 0 faultFree_quiescentActions
    normal_quiescentActions
    (by
      rintro action haction i rfl
      simp [quiescentActions] at haction)
    (fun _ action _ _ gather _ => Gather.launchesOnce_of_listedOnce listedOnce_reader gather action)
    (by decide)
  obtain ⟨hone, hmatched, hrecorded⟩ := Gather.one_run_each (textGather ["reader"] none) 1 .empty 0
    (Recording.initial "s").state
    (fun _ action _ _ gather _ => Gather.dueOnce_of_listedOnce listedOnce_reader gather action) hrun
  obtain ⟨begun, hbegun, hhead⟩ : ∃ begun,
      TransitionSystem.run (Gather.step (textGather ["reader"] none))
          (.start (textGather ["reader"] none) 1 .empty 0 (Recording.initial "s").state)
          ([] ++ [.begin' 100])
        = some begun
      ∧ begun.phase = .head := ⟨_, rfl, rfl⟩
  refine ⟨begun, gather, hrun, hphase, hone, hmatched, ?_⟩
  refine hrecorded hkeeps [] 100 quiescentActions.tail begun rfl ?_ hbegun hhead
  rintro action haction deadline rfl
  simp [quiescentActions] at haction

end Orcastork
