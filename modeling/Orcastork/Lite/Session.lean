import Orcastork.Lite.Activation
import Orcastork.Lite.EventReplay
import Orcastork.Lite.Quiescence

/-!
# A session of the lite orchestrator

`run` merges the seed, gathers with an activator that every pass refreshes, and publishes the
completion of the session last. All that is handed to `_publish` is kept beside the session; what
the sink makes of it, or that a publish fails and its event is dropped, changes nothing of the
session. Folding it gives the session, and its last event repeats what the events before it say
(`published_replays`). Each capability is activated once at most, over activated bases, and announced
once (`capability_ledger`).
-/

namespace Orcastork

namespace Lite

/-- A session, with what it has handed to `_publish`. -/
structure Session (P V : Type) where
  gather : Gather P V
  activator : Activator
  publishedCaps : List CapabilityId
  /-- `run` has published the completion. -/
  completed : Bool
  published : List (SessionEvent V)

/-- What happens next. -/
inductive SessionAction (P V : Type) where
  /-- A step of the gathering other than a pass. -/
  | act (action : Action P V)
  /-- A pass, with what the activator is refreshed with. -/
  | pass (now : Monotonic) (call : Refresh) (clock : OperatorId → Monotonic)
  /-- The gathering is over. -/
  | complete

namespace Activator

variable {V : Type}

/-- What is to be announced of the capabilities, in order. -/
def outcomes (activator : Activator) : List (CapabilityId × Bool) :=
  (activator.activated.mergeSort (· ≤ ·)).map (fun capabilityId => (capabilityId, true))
    ++ (activator.failed.mergeSort (· ≤ ·)).map (fun capabilityId => (capabilityId, false))

/-- One turn of the loop that announces them. -/
def announce (announced : List CapabilityId × List (SessionEvent V))
    (outcome : CapabilityId × Bool) : List CapabilityId × List (SessionEvent V) :=
  if outcome.1 ∈ announced.1 then announced
  else
    (announced.1 ++ [outcome.1],
      announced.2 ++ [.capabilityActivated outcome.1 outcome.2])

/-- The loop announces what was not published before: one event for each capability. -/
theorem announce_foldl (outcomes : List (CapabilityId × Bool)) {ids : List CapabilityId}
    (events : List (SessionEvent V)) :
  ∃ fresh : List (CapabilityId × Bool), fresh ⊆ outcomes
    ∧ (ids.Nodup → (ids ++ fresh.map Prod.fst).Nodup)
    ∧ (∀ outcome ∈ outcomes, outcome.1 ∈ ids ++ fresh.map Prod.fst)
    ∧ outcomes.foldl announce (ids, events) = (ids ++ fresh.map Prod.fst, events
      ++ fresh.map (fun outcome => .capabilityActivated outcome.1 outcome.2))
  := by
  induction outcomes generalizing ids events with
  | nil =>
      use [], List.nil_subset _
      rw [List.map_nil, List.map_nil, List.append_nil, List.append_nil]
      use id
      simp
  | cons outcome outcomes ih =>
      rw [List.foldl_cons, announce]
      split
      · rename_i hold
        obtain ⟨fresh, hsub, hfresh, hall, heq⟩ := ih events
        use fresh, List.subset_cons_of_subset _ hsub, hfresh
        refine ⟨?_, heq⟩
        intro other hmem
        rcases List.mem_cons.mp hmem with rfl | hmem
        · apply List.mem_append_left _ hold
        · apply hall other hmem
      · rename_i hnew
        obtain ⟨fresh, hsub, hfresh, hall, heq⟩ :=
          ih (events ++ [.capabilityActivated outcome.1 outcome.2])
        use outcome :: fresh, List.cons_subset_cons _ hsub
        rw [List.map_cons, List.map_cons, List.append_cons ids, heq]
        refine ⟨?_, ?_, ?_⟩
        · intro hnodup
          apply hfresh
          apply (List.perm_append_singleton _ _).nodup_iff.mpr
          apply List.nodup_cons.mpr ⟨hnew, hnodup⟩
        · intro other hmem
          rcases List.mem_cons.mp hmem with rfl | hmem
          · apply List.mem_append_left
            apply List.mem_append_right _ (List.mem_singleton_self _)
          · apply hall other hmem
        · simp only [List.append_assoc, List.singleton_append]

end Activator

namespace Session

/-- The loop of `_refresh_capabilities`: what is published then, and the events. -/
def announced {P V : Type} (session : Session P V) (activator : Activator) :
    List CapabilityId × List (SessionEvent V) :=
  activator.outcomes.foldl Activator.announce (session.publishedCaps, [])

variable {P V C O : Type} [DecidableEq P] [DecidableEq V] [DecidableEq C]
  (services : Services P C O) (typeName : P → String)

/-- A session before its gathering. -/
def initial (seed : List (DataPoint P V)) (now : Monotonic) : Session P V where
  gather := Gather.initial services seed now
  activator := .initial
  publishedCaps := []
  completed := false
  published := SessionState.initial.mergeEvents typeName seed

/-- The session after an action, if it can be taken. -/
def step (session : Session P V) : SessionAction P V → Option (Session P V)
  | .act (.pass _ _ _) => none
  | .act action =>
    (session.gather.step services action).map (fun gather =>
      { session with
        gather := gather
        published := session.published ++ session.gather.eventsOf services typeName action })
  | .pass now call clock =>
    let gather := session.gather
    if gather.deadlineHit ∨ gather.deadline.any (fun deadline => deadline ≤ now) then
      (gather.step services (.pass now ∅ clock)).map (fun gather =>
        { session with gather := gather })
    else
      -- `_refresh_capabilities`
      match session.activator.refresh services call
          (gather.state.view.map DataPoint.type).toFinset with
      | none => none
      | some (view, activator) =>
        let announced := session.announced activator
        let action := Action.pass now view.available clock
        (gather.step services action).map (fun gather =>
          { gather := gather
            activator := activator
            publishedCaps := announced.1
            completed := session.completed
            published := session.published ++ announced.2
              ++ session.gather.eventsOf services typeName action })
  | .complete =>
    let gather := session.gather
    if gather.phase = .ended ∧ session.completed = false then
      some { session with
        completed := true
        published := session.published
          ++ [.sessionCompleted gather.deadlineHit gather.runs gather.failures] }
    else none

/-! ### Steps -/

variable {services typeName} {session session' : Session P V}

/-- What a step does: it publishes what the gathering publishes, after what a pass announces, or the
completion. -/
inductive Stepped (services : Services P C O) (typeName : P → String)
    (session session' : Session P V) : Prop where
  /-- Nothing is refreshed, and no run launched. -/
  | acts {action : Action P V} {gather : Gather P V}
      (hstep : session.gather.step services action = some gather)
      (hprevCaps : gather.prevCaps = session.gather.prevCaps)
      (hsession : session' = { session with
        gather := gather
        published := session.published ++ session.gather.eventsOf services typeName action })
  | passes {now : Monotonic} {call : Refresh} {clock : OperatorId → Monotonic}
      {view : CapabilityView} {activator : Activator} {gather : Gather P V}
      (hrefresh : session.activator.refresh services call
        (session.gather.state.view.map DataPoint.type).toFinset = some (view, activator))
      (hstep : session.gather.step services (.pass now view.available clock) = some gather)
      (hsession : session' = ⟨gather, activator, (session.announced activator).1,
        session.completed, session.published ++ (session.announced activator).2
          ++ session.gather.eventsOf services typeName (.pass now view.available clock)⟩)
  | completes (hphase : session.gather.phase = .ended) (hcompleted : session.completed = false)
      (hsession : session' = { session with
        completed := true
        published := session.published
          ++ [.sessionCompleted session.gather.deadlineHit session.gather.runs
            session.gather.failures] })

omit [DecidableEq P] [DecidableEq V] [DecidableEq C] in
theorem prevCaps_record {gather gather' : Gather P V} {clock : OperatorId → Monotonic}
    {signal : Completed} (h : gather.recordCompletion services clock signal = some gather') :
  gather'.prevCaps = gather.prevCaps
  := by
  rw [Gather.recordCompletion] at h
  split at h
  · cases h
  · dsimp only at h
    split at h
    · obtain rfl := Option.some.inj h
      rfl
    · split at h
      · obtain rfl := Option.some.inj h
        rfl
      · split at h
        · obtain rfl := Option.some.inj h
          rfl
        · obtain rfl := Option.some.inj h
          rfl

omit [DecidableEq P] [DecidableEq V] [DecidableEq C] in
theorem prevCaps_launches {observed : Observed P C} (runnables : List (Runnable P V O))
    {gather : Gather P V} {operatorId : OperatorId} {ids : Finset CapabilityId}
    (h : (runnables.foldl (Gather.launch services observed) gather).prevCaps.get? operatorId
      = some ids) :
  ids = observed.availableIds ∨ gather.prevCaps.get? operatorId = some ids
  := by
  induction runnables generalizing gather with
  | nil =>
      right
      apply h
  | cons runnable runnables ih =>
      rcases ih h with hids | hids
      · left
        apply hids
      · have hset : (Gather.launch services observed gather runnable).prevCaps
            = gather.prevCaps.set (services.operatorId runnable.operator) observed.availableIds := by
          rw [Gather.launch]
          dsimp only
          split
          · rfl
          · rfl
        rw [hset, Dict.get?_set] at hids
        split at hids
        · left
          apply (Option.some.inj hids).symm
        · right
          apply hids

omit [DecidableEq C] in
theorem prevCaps_consume {gather gather' : Gather P V} {clock : OperatorId → Monotonic}
    (h : gather.consume services clock = some gather') :
  gather'.prevCaps = gather.prevCaps
  := by
  have hfold : ∀ (completions : List Completed) (before : Gather P V),
      completions.foldlM (Gather.recordCompletion services clock) before = some gather' →
        gather'.prevCaps = before.prevCaps := by
    intro completions
    induction completions with
    | nil =>
        intro before hbefore
        obtain rfl := Option.some.inj hbefore
        rfl
    | cons signal completions ih =>
        intro before hbefore
        rw [List.foldlM_cons, Option.bind_eq_bind, Option.bind_eq_some_iff] at hbefore
        obtain ⟨between, hrecord, hbetween⟩ := hbefore
        rw [ih between hbetween, prevCaps_record hrecord]
  apply hfold _ _ h

/-- Only a pass that launches changes what was available at the last launch of an operator. -/
theorem prevCaps_step {gather gather' : Gather P V} {action : Action P V}
    (hstep : gather.step services action = some gather')
    (hpass : ∀ now available clock, action = .pass now available clock →
      gather.deadlineHit ∨ gather.deadline.any (fun deadline => deadline ≤ now)) :
  gather'.prevCaps = gather.prevCaps
  := by
  cases action with
  | emit operatorId dataPoint =>
      rw [Gather.step, Option.ite_none_right_eq_some, Option.some.injEq] at hstep
      obtain ⟨-, rfl⟩ := hstep
      rfl
  | finish operatorId error =>
      rw [Gather.step] at hstep
      split at hstep
      · cases hstep
      · dsimp only at hstep
        rw [Option.ite_none_right_eq_some, Option.some.injEq] at hstep
        obtain ⟨-, rfl⟩ := hstep
        rfl
  | cancelled operatorId =>
      rw [Gather.step] at hstep
      split at hstep
      · cases hstep
      · rw [Option.ite_none_right_eq_some, Option.some.injEq] at hstep
        obtain ⟨-, rfl⟩ := hstep
        rfl
  | pass now available clock =>
      rw [Gather.step, Option.ite_none_right_eq_some, if_pos (hpass now available clock rfl)] at hstep
      obtain ⟨-, hstep⟩ := hstep
      obtain rfl := Option.some.inj hstep
      rfl
  | signalled clock =>
      rw [Gather.step, Option.ite_none_right_eq_some, Option.map_eq_some_iff] at hstep
      obtain ⟨-, consumed, hconsume, rfl⟩ := hstep
      apply prevCaps_consume hconsume
  | due =>
      rw [Gather.step, Option.ite_none_right_eq_some, Option.some.injEq] at hstep
      obtain ⟨-, rfl⟩ := hstep
      rfl
  | drain clock =>
      rw [Gather.step, Option.ite_none_right_eq_some, Option.map_eq_some_iff] at hstep
      obtain ⟨-, consumed, hconsume, rfl⟩ := hstep
      apply prevCaps_consume hconsume
  | close clock =>
      rw [Gather.step, Option.ite_none_right_eq_some, Option.map_eq_some_iff] at hstep
      obtain ⟨-, consumed, hconsume, rfl⟩ := hstep
      apply prevCaps_consume hconsume

theorem stepped {action : SessionAction P V}
    (hstep : session.step services typeName action = some session') :
  Stepped services typeName session session'
  := by
  cases action with
  | act action =>
      have hacts : ∀ {action : Action P V}, (∀ now available clock,
          action ≠ .pass now available clock) → (session.gather.step services action).map
            (fun gather => { session with
              gather := gather
              published := session.published ++ session.gather.eventsOf services typeName action })
            = some session' →
          Stepped services typeName session session' := by
        intro action hno hmap
        obtain ⟨gather, hgather, hsession⟩ := Option.map_eq_some_iff.mp hmap
        apply Stepped.acts hgather _ hsession.symm
        apply prevCaps_step hgather
        intro now available clock hpass
        cases hno now available clock hpass
      cases action with
      | pass => cases hstep
      | emit => apply hacts (by nofun) hstep
      | finish => apply hacts (by nofun) hstep
      | cancelled => apply hacts (by nofun) hstep
      | signalled => apply hacts (by nofun) hstep
      | due => apply hacts (by nofun) hstep
      | drain => apply hacts (by nofun) hstep
      | close => apply hacts (by nofun) hstep
  | pass now call clock =>
      rw [step] at hstep
      dsimp only at hstep
      split at hstep
      · rename_i hover
        obtain ⟨gather, hgather, rfl⟩ := Option.map_eq_some_iff.mp hstep
        apply Stepped.acts hgather
        · apply prevCaps_step hgather
          rintro now' available clock' ⟨⟩
          apply hover
        · rw [Gather.eventsOf, if_pos hover, List.append_nil]
      · split at hstep
        · cases hstep
        · rename_i view activator hrefresh
          obtain ⟨gather, hgather, rfl⟩ := Option.map_eq_some_iff.mp hstep
          apply Stepped.passes hrefresh hgather rfl
  | complete =>
      rw [step, Option.ite_none_right_eq_some, Option.some.injEq] at hstep
      obtain ⟨⟨hphase, hcompleted⟩, rfl⟩ := hstep
      apply Stepped.completes hphase hcompleted rfl

/-- Where the gathering has ended nothing runs, and it takes no step more. -/
theorem step_of_ended {gather gather' : Gather P V} {action : Action P V}
    (hended : gather.phase = .ended → ∀ operatorId, gather.running.get? operatorId = none)
    (hstep : gather.step services action = some gather') :
  gather.phase ≠ .ended
    ∧ (gather'.phase = .ended → ∀ operatorId, gather'.running.get? operatorId = none)
  := by
  cases action with
  | emit operatorId dataPoint =>
      rw [Gather.step, Option.ite_none_right_eq_some, Option.some.injEq] at hstep
      obtain ⟨hworking, rfl⟩ := hstep
      have hgoing : gather.phase ≠ .ended := by
        intro hphase
        rw [hended hphase operatorId] at hworking
        cases hworking
      use hgoing
  | finish operatorId error =>
      rw [Gather.step] at hstep
      split at hstep
      · cases hstep
      · rename_i record hrecord
        dsimp only at hstep
        rw [Option.ite_none_right_eq_some, Option.some.injEq] at hstep
        obtain ⟨-, rfl⟩ := hstep
        have hgoing : gather.phase ≠ .ended := by
          intro hphase
          cases hrecord.symm.trans (hended hphase operatorId)
        use hgoing
        intro hphase
        cases hgoing hphase
  | cancelled operatorId =>
      rw [Gather.step] at hstep
      split at hstep
      · cases hstep
      · rename_i record hrecord
        rw [Option.ite_none_right_eq_some, Option.some.injEq] at hstep
        obtain ⟨-, rfl⟩ := hstep
        have hgoing : gather.phase ≠ .ended := by
          intro hphase
          cases hrecord.symm.trans (hended hphase operatorId)
        use hgoing
        intro hphase
        cases hgoing hphase
  | pass now available clock =>
      rw [Gather.step, Option.ite_none_right_eq_some] at hstep
      obtain ⟨hphase, hstep⟩ := hstep
      rw [hphase]
      use LoopPhase.noConfusion
      split at hstep
      · obtain rfl := Option.some.inj hstep
        rintro ⟨⟩
      · rw [Gather.pass] at hstep
        split at hstep
        · cases hstep
        · obtain rfl := Option.some.inj hstep
          dsimp only
          rw [Gather.nextPhase]
          split
          · rintro ⟨⟩
          · split
            · rintro ⟨⟩
            · rintro ⟨⟩
  | signalled clock =>
      rw [Gather.step, Option.ite_none_right_eq_some, Option.map_eq_some_iff] at hstep
      obtain ⟨⟨hphase, -⟩, consumed, -, rfl⟩ := hstep
      constructor
      · rcases hphase with hphase | hphase
        · rw [hphase]
          rintro ⟨⟩
        · rw [hphase]
          rintro ⟨⟩
      · rintro ⟨⟩
  | due =>
      rw [Gather.step, Option.ite_none_right_eq_some, Option.some.injEq] at hstep
      obtain ⟨hphase, rfl⟩ := hstep
      constructor
      · rcases hphase with hphase | hphase
        · rw [hphase]
          rintro ⟨⟩
        · rw [hphase]
          rintro ⟨⟩
      · rintro ⟨⟩
  | drain clock =>
      rw [Gather.step, Option.ite_none_right_eq_some, Option.map_eq_some_iff] at hstep
      obtain ⟨hphase, consumed, -, rfl⟩ := hstep
      rw [hphase]
      use LoopPhase.noConfusion
      rintro ⟨⟩
  | close clock =>
      rw [Gather.step, Option.ite_none_right_eq_some, Option.map_eq_some_iff] at hstep
      obtain ⟨⟨hphase, -⟩, consumed, -, rfl⟩ := hstep
      rw [hphase]
      use LoopPhase.noConfusion
      intro _ operatorId
      rfl

/-! ### What was published -/

/-- What holds of all that is published: it says what became of the session, and its completion
comes last. -/
structure Told (services : Services P C O) (typeName : P → String) (session : Session P V) :
    Prop where
  sound : Gather.Sound services session.gather
  numbered : Gather.Numbered session.gather session.gather.completions
  replays : Replica.initial.replay session.published = session.gather.replica typeName
  still : session.gather.phase = .ended →
    ∀ operatorId, session.gather.running.get? operatorId = none
  going : session.completed = false → ∀ event ∈ session.published, event.isCompletion = false
  completes : session.completed = true → session.gather.phase = .ended
    ∧ ∃ events, (∀ event ∈ events, event.isCompletion = false) ∧ session.published
      = events ++ [.sessionCompleted session.gather.deadlineHit session.gather.runs
        session.gather.failures]

omit [DecidableEq C] in
theorem told_initial (seed : List (DataPoint P V)) (now : Monotonic) :
  Told services typeName (initial services typeName seed now)
  := by
  constructor
  · apply Gather.sound_initial
  · constructor
    · nofun
    · nofun
  · have hreplay := Gather.replay_mergeEvents typeName
      { Gather.initial services seed now with state := .initial } seed
    apply hreplay
  · nofun
  · intro _ event hmem
    apply SessionEvent.isCompletion_of_isGathering
    apply SessionState.isGathering_of_mem_mergeEvents hmem
  · nofun

omit [DecidableEq P] [DecidableEq V] [DecidableEq C] in
theorem replay_of_unseen {replica : Replica V} {events : List (SessionEvent V)}
    (h : ∀ event ∈ events, ∀ replica : Replica V, replica.observe event = replica) :
  replica.replay events = replica
  := by
  induction events with
  | nil => rfl
  | cons event events ih =>
      rw [Replica.replay_cons, h event List.mem_cons_self]
      apply ih
      intro other hmem
      apply h other (List.mem_cons_of_mem _ hmem)

/-- A step of the gathering tells what became of it. -/
theorem Told.gathers {action : Action P V} {gather : Gather P V}
    (h : Told services typeName session) (activator : Activator)
    (publishedCaps : List CapabilityId) {announced : List (SessionEvent V)}
    (hstep : session.gather.step services action = some gather)
    (hannounced : ∀ event ∈ announced, event.isCompletion = false
      ∧ ∀ replica : Replica V, replica.observe event = replica) :
  Told services typeName ⟨gather, activator, publishedCaps, session.completed,
    session.published ++ announced ++ session.gather.eventsOf services typeName action⟩
  := by
  obtain ⟨hgoing, hstill⟩ := step_of_ended h.still hstep
  obtain ⟨hreplay, hnumbered⟩ := Gather.replay_eventsOf typeName h.sound h.numbered hstep
  have hopen : session.completed = false := by
    rw [← Bool.not_eq_true]
    intro hcompleted
    apply hgoing (h.completes hcompleted).1
  constructor
  · apply h.sound.step hstep
  · apply hnumbered
  · dsimp only
    have hunseen : (session.gather.replica typeName).replay announced
        = session.gather.replica typeName := by
      apply replay_of_unseen
      intro event hmem
      apply (hannounced event hmem).2
    rw [Replica.replay_append, Replica.replay_append, h.replays, hunseen, hreplay]
  · apply hstill
  · intro _ event hmem
    rcases List.mem_append.mp hmem with hmem | hmem
    · rcases List.mem_append.mp hmem with hmem | hmem
      · apply h.going hopen event hmem
      · apply (hannounced event hmem).1
    · apply SessionEvent.isCompletion_of_isGathering
      apply Gather.isGathering_of_mem_eventsOf hmem
  · intro hcompleted
    cases hopen.symm.trans hcompleted

theorem Told.step {action : SessionAction P V} (h : Told services typeName session)
    (hstep : session.step services typeName action = some session') :
  Told services typeName session'
  := by
  cases stepped hstep with
  | acts hgather _ hsession =>
      rw [hsession]
      have hnothing : ∀ event ∈ ([] : List (SessionEvent V)), event.isCompletion = false
          ∧ ∀ replica : Replica V, replica.observe event = replica := by
        nofun
      have htold := h.gathers session.activator session.publishedCaps hgather hnothing
      rw [List.append_nil] at htold
      apply htold
  | passes _ hgather hsession =>
      rw [hsession]
      apply h.gathers _ _ hgather
      intro event hmem
      obtain ⟨fresh, -, -, -, heq⟩ :=
        Activator.announce_foldl _ ([] : List (SessionEvent V))
      rw [announced, heq, List.nil_append] at hmem
      obtain ⟨outcome, -, rfl⟩ := List.mem_map.mp hmem
      exact ⟨rfl, fun _ => rfl⟩
  | completes hphase hcompleted hsession =>
      rw [hsession]
      constructor
      · apply h.sound
      · exact ⟨@h.numbered.armed, h.numbered.cut⟩
      · dsimp only
        rw [Replica.replay_append, h.replays]
        rfl
      · apply h.still
      · nofun
      · intro _
        use hphase, session.published, h.going hcompleted

theorem told_run {seed : List (DataPoint P V)} {now : Monotonic}
    {actions : List (SessionAction P V)}
    (hrun : TransitionSystem.run (step services typeName) (initial services typeName seed now)
      actions = some session) :
  Told services typeName session
  := by
  apply TransitionSystem.run_invariant _ (told_initial seed now) hrun
  intro before action after h hstep
  apply h.step hstep

/-! ### The ledger of capabilities -/

omit [DecidableEq P] [DecidableEq V] [DecidableEq C] in
/-- A capability is listed as what it came to. -/
theorem mem_outcomes_iff {activator : Activator} {capabilityId : CapabilityId} {activated : Bool} :
  (capabilityId, activated) ∈ activator.outcomes
    ↔ if activated then capabilityId ∈ activator.activated else capabilityId ∈ activator.failed
  := by
  rw [Activator.outcomes, List.mem_append, List.mem_map, List.mem_map]
  cases activated with
  | true => simp
  | false => simp

/-- What a pass launches is recorded with what was available, and nothing else is. -/
theorem prevCaps_pass {gather gather' : Gather P V} {now : Monotonic}
    {available : Finset CapabilityId} {clock : OperatorId → Monotonic}
    (hsound : Gather.Sound services gather)
    (hstep : gather.step services (.pass now available clock) = some gather')
    {operatorId : OperatorId} {ids : Finset CapabilityId}
    (hids : gather'.prevCaps.get? operatorId = some ids) :
  ids = available ∨ gather.prevCaps.get? operatorId = some ids
  := by
  rw [Gather.step, Option.ite_none_right_eq_some] at hstep
  obtain ⟨-, hstep⟩ := hstep
  split at hstep
  · obtain rfl := Option.some.inj hstep
    right
    apply hids
  · rw [Gather.pass] at hstep
    split at hstep
    · cases hstep
    · rename_i plan hvisits
      obtain rfl := Option.some.inj hstep
      rw [← (Gather.unplanned_visits hsound.kept hvisits).prevCaps]
      apply prevCaps_launches plan.runnable hids

/-- What holds of the capabilities of a session and of what was announced of them. -/
structure Ledger (services : Services P C O) (session : Session P V) : Prop where
  register : Activator.Register services session.activator
  nodup : session.publishedCaps.Nodup
  listed : (session.published.filterMap SessionEvent.capability?).map Prod.fst
    = session.publishedCaps
  noted : ∀ outcome, outcome ∈ session.published.filterMap SessionEvent.capability?
    ↔ outcome ∈ session.activator.outcomes
  prevCaps : ∀ {operatorId ids}, session.gather.prevCaps.get? operatorId = some ids →
    ids ⊆ session.activator.activated.toFinset

omit [DecidableEq P] in
/-- A capability that was attempted is listed once. -/
theorem eq_of_mem_outcomes {activator : Activator} (h : Activator.Register services activator)
    {capabilityId : CapabilityId} {activated activated' : Bool}
    (hmem : (capabilityId, activated) ∈ activator.outcomes)
    (hmem' : (capabilityId, activated') ∈ activator.outcomes) :
  activated = activated'
  := by
  have hdisjoint := List.disjoint_of_nodup_append h.nodup
  rw [mem_outcomes_iff] at hmem hmem'
  cases activated with
  | true =>
      cases activated' with
      | true => rfl
      | false => cases hdisjoint hmem hmem'
  | false =>
      cases activated' with
      | true => cases hdisjoint hmem' hmem
      | false => rfl

omit [DecidableEq P] [DecidableEq V] in
theorem ledger_initial {published : List (SessionEvent V)} {gather : Gather P V}
    (hpublished : published.filterMap SessionEvent.capability? = [])
    (hprevCaps : gather.prevCaps = .empty) :
  Ledger services ⟨gather, .initial, [], false, published⟩
  := by
  constructor
  · apply Activator.register_initial
  · apply List.nodup_nil
  · rw [hpublished]
    rfl
  · intro outcome
    rw [hpublished]
    constructor
    · nofun
    · intro hmem
      obtain ⟨capabilityId, activated⟩ := outcome
      rw [mem_outcomes_iff] at hmem
      split at hmem
      · cases hmem
      · cases hmem
  · intro operatorId ids hids
    dsimp only at hids
    rw [hprevCaps] at hids
    cases hids

theorem Ledger.step {action : SessionAction P V} (h : Ledger services session)
    (hsound : Gather.Sound services session.gather)
    (hstep : session.step services typeName action = some session') :
  Ledger services session'
  := by
  have hgathering : ∀ {gather : Gather P V} {action : Action P V},
      (gather.eventsOf services typeName action).filterMap SessionEvent.capability? = [] := by
    intro gather action
    rw [List.filterMap_eq_nil_iff]
    intro event hmem
    apply SessionEvent.capability?_of_isGathering
    apply Gather.isGathering_of_mem_eventsOf hmem
  cases stepped hstep with
  | acts _ hprevCaps hsession =>
      rw [hsession]
      constructor
      · apply h.register
      · apply h.nodup
      · rw [List.filterMap_append, hgathering, List.append_nil]
        apply h.listed
      · intro outcome
        rw [List.filterMap_append, hgathering, List.append_nil]
        apply h.noted
      · intro operatorId ids hids
        dsimp only at hids
        rw [hprevCaps] at hids
        apply h.prevCaps hids
  | @passes now call clock view activator gather hrefresh hgather hsession =>
      obtain ⟨hregister, hsub, hsub', -, hview⟩ := h.register.refresh hrefresh
      obtain ⟨fresh, hfresh, hnodup, hall, heq⟩ :=
        @Activator.announce_foldl V activator.outcomes session.publishedCaps []
      have hnew : (session.announced activator).2.filterMap SessionEvent.capability? = fresh := by
        rw [announced, heq, List.nil_append, List.filterMap_map]
        apply List.filterMap_some
      have hold : ∀ outcome ∈ session.activator.outcomes, outcome ∈ activator.outcomes := by
        rintro ⟨capabilityId, activated⟩ hmem
        rw [mem_outcomes_iff] at hmem ⊢
        cases activated with
        | true => apply hsub hmem
        | false => apply hsub' hmem
      rw [hsession]
      constructor
      · apply hregister
      · dsimp only
        rw [announced, heq]
        apply hnodup h.nodup
      · dsimp only
        rw [List.filterMap_append, List.filterMap_append, hgathering, hnew, List.append_nil,
          List.map_append, h.listed, announced, heq]
      · rintro ⟨capabilityId, activated⟩
        dsimp only
        rw [List.filterMap_append, List.filterMap_append, hgathering, hnew, List.append_nil,
          List.mem_append, h.noted]
        constructor
        · rintro (hmem | hmem)
          · apply hold _ hmem
          · apply hfresh hmem
        · intro hmem
          have hlisted := hall _ hmem
          rw [← h.listed, ← List.map_append, List.mem_map] at hlisted
          obtain ⟨⟨capabilityId, activated'⟩, hlisted, rfl⟩ := hlisted
          rw [List.mem_append, h.noted] at hlisted
          have hmem' : (capabilityId, activated') ∈ activator.outcomes := by
            rcases hlisted with hlisted | hlisted
            · apply hold _ hlisted
            · apply hfresh hlisted
          rw [eq_of_mem_outcomes hregister hmem hmem']
          apply hlisted
      · intro operatorId ids hids
        rcases prevCaps_pass hsound hgather hids with rfl | hids
        · rw [hview]
          apply Finset.inter_subset_right
        · intro capabilityId hmem
          rw [List.mem_toFinset]
          apply hsub
          apply List.mem_toFinset.mp (h.prevCaps hids hmem)
  | completes _ _ hsession =>
      rw [hsession]
      constructor
      · apply h.register
      · apply h.nodup
      · rw [List.filterMap_append]
        dsimp only [List.filterMap_cons, List.filterMap_nil, SessionEvent.capability?]
        rw [List.append_nil]
        apply h.listed
      · intro outcome
        rw [List.filterMap_append]
        dsimp only [List.filterMap_cons, List.filterMap_nil, SessionEvent.capability?]
        rw [List.append_nil]
        apply h.noted
      · apply @h.prevCaps

theorem ledger_run {seed : List (DataPoint P V)} {now : Monotonic}
    {actions : List (SessionAction P V)}
    (hrun : TransitionSystem.run (step services typeName) (initial services typeName seed now)
      actions = some session) :
  Ledger services session
  := by
  have hinitial : Ledger services (initial services typeName seed now) := by
    apply ledger_initial
    · rw [List.filterMap_eq_nil_iff]
      intro event hmem
      apply SessionEvent.capability?_of_isGathering
      apply SessionState.isGathering_of_mem_mergeEvents hmem
    · rfl
  have hboth : Told services typeName session ∧ Ledger services session := by
    apply TransitionSystem.run_invariant _ ⟨told_initial seed now, hinitial⟩ hrun
    rintro before action after ⟨htold, hledger⟩ hstep
    use htold.step hstep
    apply hledger.step htold.sound hstep
  apply hboth.2

end Session

/-! ### Runs of a session -/

variable {P V C O : Type} [DecidableEq P] [DecidableEq V] [DecidableEq C]

/-- Whoever folds all that is published has the DataPoints, the revision, the runs, the report of
failures and the attempts under way of the session as they are. Once the session is completed, the
completion is the last event and the only one of its kind, and says of the runs and the failures
what the events before it say. -/
theorem published_replays (services : Services P C O) (typeName : P → String)
    (seed : List (DataPoint P V)) (now : Monotonic) (actions : List (SessionAction P V))
    {session : Session P V}
    (hrun : TransitionSystem.run (Session.step services typeName)
      (Session.initial services typeName seed now) actions = some session) :
  Replica.initial.replay session.published = session.gather.replica typeName
    ∧ (session.completed = false → ∀ event ∈ session.published, event.isCompletion = false)
    ∧ (session.completed = true →
      ∃ events, (∀ event ∈ events, event.isCompletion = false)
        ∧ session.published = events ++ [.sessionCompleted session.gather.deadlineHit
          (Replica.initial.replay events).runs (Replica.initial.replay events).failures])
  := by
  have htold := Session.told_run hrun
  use htold.replays, htold.going
  intro hcompleted
  obtain ⟨-, events, hevents, hpublished⟩ := htold.completes hcompleted
  use events, hevents
  have hreplay := htold.replays
  rw [hpublished, Replica.replay_append] at hreplay
  have hruns : (Replica.initial.replay events).runs = session.gather.runs := by
    apply congrArg Replica.runs hreplay
  have hfailures : (Replica.initial.replay events).failures = session.gather.failures := by
    apply congrArg Replica.failures hreplay
  rw [hruns, hfailures, hpublished]

/-- A lookup that needs the geocoder, which is there at once. -/
def geocoded : Services Unit Unit Unit where
  declarations :=
    { dataPoints := Hierarchy.flat Unit
      abstractTypes := ∅
      registeredLeaves := [()]
      capabilities := Hierarchy.flat Unit
      capabilityId := fun _ => "geocoder"
      capabilityDependsOn := fun _ => ∅
      capabilityRequires := fun _ => ∅
      operatorId := fun _ => "lookup"
      dependsOn := fun _ => ∅
      uses := fun _ => ∅
      produces := fun _ => {()}
      requires := fun _ => {()}
      aggregator := fun _ => none }
  operators := [()]
  capabilities := [()]
  policy := fun _ => ⟨false, .addedOnly, none⟩
  debounce := fun _ => none
  retry := fun _ => none
  timeout := fun _ => none
  operationTimeout := 60
  sessionDeadline := some 300
  caps := .empty
  unique := List.nodup_singleton _

/-- The geocoder is activated, the lookup emits what it found, and the session completes. -/
def geocodedSession : List (SessionAction Unit String) :=
  let call : Refresh := ⟨{"geocoder"}, [], ["geocoder"], fun _ => .activated⟩
  [.pass 0 call (fun _ => 0), .act (.emit "lookup" ⟨(), "52 N", "lookup", 1, 1⟩),
    .act (.finish "lookup" none), .act (.signalled (fun _ => 1)), .pass 1 call (fun _ => 1),
    .act (.drain (fun _ => 1)), .act (.close (fun _ => 1)), .complete]

/-- The events of that session give its one DataPoint and that the lookup ran once. -/
theorem published_replays_geocoded :
  ∃ session, TransitionSystem.run (Session.step geocoded (fun _ => "Address"))
        (Session.initial geocoded (fun _ => "Address") [] 0) geocodedSession = some session
      ∧ session.completed = true
      ∧ (Replica.initial.replay session.published).dataPoints = [("Address", "52 N", "lookup")]
      ∧ (Replica.initial.replay session.published).runs.get? "lookup" = some 1
  := by
  have hruns : (TransitionSystem.run (Session.step geocoded (fun _ => "Address"))
      (Session.initial geocoded (fun _ => "Address") [] 0) geocodedSession).map (fun session =>
        let replica := session.gather.replica (fun _ => "Address")
        (session.completed, replica.dataPoints, replica.runs.get? "lookup"))
      = some (true, [("Address", "52 N", "lookup")], some 1) := by
    rfl
  obtain ⟨session, hrun, hsession⟩ := Option.map_eq_some_iff.mp hruns
  simp only [Prod.mk.injEq] at hsession
  use session, hrun, hsession.1
  rw [(published_replays geocoded (fun _ => "Address") [] 0 geocodedSession hrun).1]
  apply hsession.2

/-- Each capability is announced once at most, as activated if it was activated and as failed if its
activation failed; no capability is attempted twice, each was activated over bases that were
activated before it, and no operator was launched with one that was not activated. -/
theorem capability_ledger (services : Services P C O) (typeName : P → String)
    (seed : List (DataPoint P V)) (now : Monotonic) (actions : List (SessionAction P V))
    {session : Session P V}
    (hrun : TransitionSystem.run (Session.step services typeName)
      (Session.initial services typeName seed now) actions = some session) :
  ((session.published.filterMap SessionEvent.capability?).map Prod.fst).Nodup
    ∧ (∀ capabilityId, (capabilityId, true) ∈ session.published.filterMap SessionEvent.capability?
      ↔ capabilityId ∈ session.activator.activated)
    ∧ (∀ capabilityId, (capabilityId, false) ∈ session.published.filterMap SessionEvent.capability?
      ↔ capabilityId ∈ session.activator.failed)
    ∧ Activator.Register services session.activator
    ∧ ∀ operatorId ids, session.gather.prevCaps.get? operatorId = some ids →
      ids ⊆ session.activator.activated.toFinset
  := by
  have hledger := Session.ledger_run hrun
  rw [hledger.listed]
  use hledger.nodup
  constructor
  · intro capabilityId
    rw [hledger.noted, Session.mem_outcomes_iff, if_pos rfl]
  · constructor
    · intro capabilityId
      rw [hledger.noted, Session.mem_outcomes_iff, if_neg Bool.false_ne_true]
    · use hledger.register
      intro operatorId ids hids
      apply hledger.prevCaps hids

/-- The geocoder is announced as activated, and not as failed. -/
theorem capability_ledger_geocoded :
  ∃ session, TransitionSystem.run (Session.step geocoded (fun _ => "Address"))
        (Session.initial geocoded (fun _ => "Address") [] 0) geocodedSession = some session
      ∧ ("geocoder", true) ∈ session.published.filterMap SessionEvent.capability?
      ∧ ("geocoder", false) ∉ session.published.filterMap SessionEvent.capability?
  := by
  have hruns : (TransitionSystem.run (Session.step geocoded (fun _ => "Address"))
      (Session.initial geocoded (fun _ => "Address") [] 0) geocodedSession).map
        (fun session => session.activator) = some ⟨["geocoder"], []⟩ := by
    rfl
  obtain ⟨session, hrun, hactivator⟩ := Option.map_eq_some_iff.mp hruns
  obtain ⟨-, hactivated, hfailed, -⟩ :=
    capability_ledger geocoded (fun _ => "Address") [] 0 geocodedSession hrun
  use session, hrun
  rw [hactivated, hfailed, hactivator]
  constructor
  · apply List.mem_singleton_self
  · apply List.not_mem_nil

end Lite

end Orcastork
