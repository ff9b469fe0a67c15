import Orcastork.Orchestrator.Introspection
import Orcastork.Orchestrator.OneGather

/-!
# Is the number of launches bounded

A graph is accepted if every operator on a cycle of it has a cap, and its edges are what the operators
depend on. What makes an operator run again is also what it uses. Where no operator comes to run
again for what its own runs emit, other than through an operator on a cycle of the graph, a gather
launches no more than a number that is known before it begins (`launches_bounded`).
-/

namespace Orcastork

open Components FiniteBounds

namespace Gather

section

variable {P C O : Type} [DecidableEq P] [DecidableEq C]

/-- What is finite of a gather: what each run of an operator emits, how many DataPoints are delivered,
and how often the capabilities at hand change. -/
structure Limits where
  /-- By the operator, and the number of the run among the runs of the operator. -/
  emits : OperatorId → ℕ → ℕ
  deliveries : ℕ
  changes : ℕ

/-- A gather has kept to some limits. -/
structure Within (services : GatherServices P C O) (limits : Limits) (past : List GatherAction)
    (gather : Gather O) : Prop where
  emits : ∀ i launched, gather.launches[i]? = some launched →
    emissionsOf i past ≤ limits.emits (services.operatorId launched.operator)
      ((gather.launches.take i).countP (fun other =>
        decide (services.operatorId other.operator = services.operatorId launched.operator)))
  deliveries : deliveries past ≤ limits.deliveries
  changes : (availability past).changes ≤ limits.changes

/-- The gathers within some limits launch an operator a bounded number of times. -/
def LaunchesBounded (services : GatherServices P C O) (caps : Dict OperatorId ℤ) (limits : Limits)
    (operator : O) : Prop :=
  ∃ bound, ∀ past gather, OneGather services caps past gather → Within services limits past gather →
    launchesOf services operator gather ≤ bound

variable {services : GatherServices P C O} {caps : Dict OperatorId ℤ} {limits : Limits}

/-- What has triggered an operator is bounded by the launches of those that can trigger it. -/
theorem OneGather.stimuli_le_sum {past : List GatherAction} {gather : Gather O} {operator : O}
    {producers : Finset OperatorId} (h : OneGather services caps past gather)
    (hwithin : Within services limits past gather)
    (hproducers : ∀ producer ∈ services.gathering, CanTrigger services producer operator →
      services.operatorId producer ∈ producers) :
  (past.map (stimulus services operator)).sum
    ≤ limits.deliveries + ∑ producerId ∈ producers,
      ∑ k ∈ Finset.range (gather.launches.countP (fun launched =>
        decide (services.operatorId launched.operator = producerId))), limits.emits producerId k
  := by
  have hall : ∀ i launched, gather.launches[i]? = some launched →
      CanTrigger services launched.operator operator →
      i ∈ positions (fun launched => decide (services.operatorId launched.operator ∈ producers))
        gather.launches := by
    intro i launched hget htriggers
    apply mem_positions.mpr
    use launched, hget
    apply decide_eq_true
    apply hproducers _ _ htriggers
    apply h.gathers launched (List.mem_of_getElem? hget)
  calc (past.map (stimulus services operator)).sum
      ≤ deliveries past + ∑ i ∈ positions (fun launched =>
          decide (services.operatorId launched.operator ∈ producers)) gather.launches,
        emissionsOf i past := h.stimuli_le hall
    _ ≤ _ := by
        apply Nat.add_le_add hwithin.deliveries
        apply sum_positions_le
        intro i launched hget _
        apply hwithin.emits i launched hget

/-- An operator is launched a bounded number of times if those that can trigger it are. -/
theorem launchesBounded_of_producers {operator : O} (hgathers : operator ∈ services.gathering)
    (hproducers : ∀ producer ∈ services.gathering, CanTrigger services producer operator →
      LaunchesBounded services caps limits producer) :
  LaunchesBounded services caps limits operator
  := by
  classical
  let producers : Finset OperatorId := ((services.gathering.filter (fun producer =>
    decide (CanTrigger services producer operator))).map services.operatorId).toFinset
  have hbounds : ∀ producerId, ∃ bound, producerId ∈ producers →
      ∀ past gather, OneGather services caps past gather → Within services limits past gather →
        gather.launches.countP (fun launched =>
          decide (services.operatorId launched.operator = producerId)) ≤ bound := by
    intro producerId
    by_cases hmem : producerId ∈ producers
    · obtain ⟨producer, hfiltered, rfl⟩ := List.mem_map.mp (List.mem_toFinset.mp hmem)
      obtain ⟨hproducer, htriggers⟩ := List.mem_filter.mp hfiltered
      obtain ⟨bound, hbound⟩ := hproducers producer hproducer (of_decide_eq_true htriggers)
      exact ⟨bound, fun _ => hbound⟩
    · exact ⟨0, fun hmem' => absurd hmem' hmem⟩
  choose bounds hbounds using hbounds
  use occurrences services operator * (attempts services operator
    * (1 + (limits.deliveries + ∑ producerId ∈ producers,
      ∑ k ∈ Finset.range (bounds producerId), limits.emits producerId k) + limits.changes))
  intro past gather hgather hwithin
  have hstimuli : (past.map (stimulus services operator)).sum
      ≤ limits.deliveries + ∑ producerId ∈ producers,
        ∑ k ∈ Finset.range (bounds producerId), limits.emits producerId k := by
    apply (hgather.stimuli_le_sum hwithin _).trans
    · apply Nat.add_le_add_left
      apply Finset.sum_le_sum
      intro producerId hmem
      apply Finset.sum_le_sum_of_subset
      apply Finset.range_mono
      apply hbounds producerId hmem past gather hgather hwithin
    · intro producer hproducer htriggers
      apply List.mem_toFinset.mpr
      apply List.mem_map_of_mem
      exact List.mem_filter.mpr ⟨hproducer, decide_eq_true htriggers⟩
  apply (hgather.launchesOf_le hgathers).trans
  apply Nat.mul_le_mul_left
  apply Nat.mul_le_mul_left
  apply Nat.add_le_add _ hwithin.changes
  apply Nat.add_le_add_left hstimuli

/-- Two operators without a cap, and the one can trigger the other. -/
structure TriggersUncapped (services : GatherServices P C O) (caps : Dict OperatorId ℤ)
    (producer operator : O) : Prop where
  uncapped : caps.get? (services.operatorId producer) = none
  uncapped' : caps.get? (services.operatorId operator) = none
  triggers : CanTrigger services producer operator

/-- Every operator of a gather is launched a bounded number of times if none without a cap triggers
itself through others without one. -/
theorem launchesBounded_of_acyclic
    (hacyclic : ∀ operator, ¬Relation.TransGen (fun producer operator =>
      producer ∈ services.gathering ∧ operator ∈ services.gathering
        ∧ TriggersUncapped services caps producer operator) operator operator) :
  ∀ operator ∈ services.gathering, LaunchesBounded services caps limits operator
  := by
  have hcapped : ∀ operator ∈ services.gathering, ∀ cap,
      caps.get? (services.operatorId operator) = some cap →
      LaunchesBounded services caps limits operator := by
    intro operator hgathers cap hcap
    use occurrences services operator * cap.toNat
    intro past gather hgather _
    apply hgather.launchesOf_le_of_cap hgathers hcap
  refine acyclic_induction (P := LaunchesBounded services caps limits) services.gathering hacyclic ?_
  intro operator hgathers ih
  cases hcap : caps.get? (services.operatorId operator) with
  | some cap => exact hcapped operator hgathers cap hcap
  | none =>
      apply launchesBounded_of_producers hgathers
      intro producer hproducer htriggers
      cases hcap' : caps.get? (services.operatorId producer) with
      | some cap => exact hcapped producer hproducer cap hcap'
      | none => exact ih producer hproducer ⟨hcap', hcap, htriggers⟩

/-- The launches of a gather are bounded if those of each operator are. -/
theorem exists_bound_of_launchesBounded
    (h : ∀ operator ∈ services.gathering, LaunchesBounded services caps limits operator) :
  ∃ bound, ∀ past gather, OneGather services caps past gather → Within services limits past gather →
    gather.launches.length ≤ bound
  := by
  have hbounds : ∀ operatorId, ∃ bound, operatorId ∈ services.gathering.map services.operatorId →
      ∀ past gather, OneGather services caps past gather → Within services limits past gather →
        gather.launches.countP (fun launched =>
          decide (services.operatorId launched.operator = operatorId)) ≤ bound := by
    intro operatorId
    by_cases hmem : operatorId ∈ services.gathering.map services.operatorId
    · obtain ⟨operator, hgathers, rfl⟩ := List.mem_map.mp hmem
      obtain ⟨bound, hbound⟩ := h operator hgathers
      exact ⟨bound, fun _ => hbound⟩
    · exact ⟨0, fun hmem' => absurd hmem' hmem⟩
  choose bounds hbounds using hbounds
  use ∑ operatorId ∈ (services.gathering.map services.operatorId).toFinset, bounds operatorId
  intro past gather hgather hwithin
  have hkeys : ∀ launched ∈ gather.launches, services.operatorId launched.operator
      ∈ (services.gathering.map services.operatorId).toFinset := by
    intro launched hlaunched
    apply List.mem_toFinset.mpr
    apply List.mem_map_of_mem
    apply hgather.gathers launched hlaunched
  rw [length_eq_sum_countP hkeys]
  apply Finset.sum_le_sum
  intro operatorId hmem
  apply hbounds operatorId (List.mem_toFinset.mp hmem) past gather hgather hwithin

end

end Gather

/-! ### Operators on a cycle -/

namespace GatherServices

variable {P C O : Type} [DecidableEq P] [DecidableEq C] [DecidableEq O]

/-- An operator to gather may emit what makes another run again, and neither is on a cycle of what
they depend on. -/
structure TriggersOffCycle (services : GatherServices P C O) (permissions : NamespacePermissions)
    (producer operator : O) : Prop where
  gathers : producer ∈ (services.resumed permissions).gathering
  gathers' : operator ∈ (services.resumed permissions).gathering
  offCycle : ¬Relation.TransGen (Edge (services.resumedGraph permissions)) (Node.operator producer)
    (Node.operator producer)
  offCycle' : ¬Relation.TransGen (Edge (services.resumedGraph permissions)) (Node.operator operator)
    (Node.operator operator)
  triggers : Gather.CanTrigger services producer operator

variable {services : GatherServices P C O} {permissions : NamespacePermissions}

/-- What the namespace excludes only takes edges away. -/
theorem edge_resumedGraph {node successor : Node C O}
    (h : Edge (services.resumedGraph permissions) node successor) :
  Edge (services.declarations.adjacency (services.flow.gathering services.classes)
    services.flow.capabilities) node successor
  := by
  have hnodes : ∀ other : Node C O,
      other ∈ (services.declarations.buildGraph (services.resumed permissions).gathering
        services.flow.capabilities).nodes →
      other ∈ (services.declarations.buildGraph (services.flow.gathering services.classes)
        services.flow.capabilities).nodes := by
    intro other
    rw [Declarations.mem_nodes_buildGraph, Declarations.mem_nodes_buildGraph]
    apply Or.imp_left
    rintro ⟨operator, hmem, hsame⟩
    use operator, (List.mem_filter.mp hmem).1
  rw [resumedGraph, Declarations.edge_adjacency_iff, Declarations.mem_edges_buildGraph] at h
  rw [Declarations.edge_adjacency_iff, Declarations.mem_edges_buildGraph]
  exact ⟨hnodes _ h.1, hnodes _ h.2.1, h.2.2⟩

/-- In a graph that is accepted every operator on a cycle declares a cap. -/
theorem exists_maxCycles {name : Node C O → String} {maxCycles : O → Option ℤ}
    {edges : Dict (Node C O) (List (Node C O))} (h : Accepted name maxCycles edges) {operator : O}
    (hcycle : Relation.TransGen (Edge edges) (Node.operator operator) (Node.operator operator)) :
  ∃ cap, maxCycles operator = some cap
  := by
  obtain ⟨rest, hrest⟩ := exists_isCycle hcycle
  obtain ⟨component, hcomponent, hcyclic, hmem⟩ := exists_component_of_isCycle hrest
  apply Option.ne_none_iff_exists'.mp
  apply (accepted_iff.mp h component hcomponent hcyclic).2
  apply hmem _ List.mem_cons_self

/-- An operator without a cap is not on a cycle. -/
theorem offCycle_of_uncapped {name : Node C O → String}
    (h : Accepted name (fun operator => (services.flow.policy operator).maxCycles)
      (services.declarations.adjacency (services.flow.gathering services.classes)
        services.flow.capabilities))
    {operator : O} (hgathers : operator ∈ (services.resumed permissions).gathering)
    (huncapped : (services.resumedCaps permissions).get? (services.operatorId operator) = none) :
  ¬Relation.TransGen (Edge (services.resumedGraph permissions)) (Node.operator operator)
    (Node.operator operator)
  := by
  intro hcycle
  have hcycle' := Relation.TransGen.mono (fun _ _ => edge_resumedGraph) _ _ hcycle
  obtain ⟨cap, hcap⟩ := exists_maxCycles h hcycle'
  have hsome : (services.resumedCaps permissions).get? (services.operatorId operator)
      = some cap := by
    have hinjective : Function.Injective services.operatorId :=
      services.classes.operatorId_injective
    rw [resumedCaps, get?_circuitCaps hinjective]
    exact ⟨hgathers, hcycle, hcap⟩
  cases huncapped.symm.trans hsome

/-- A gather within some limits launches no more than some number, whatever its deadline is and
however time passes, if no operator comes to trigger itself through operators that are not on a
cycle of the graph. -/
theorem launches_bounded (services : GatherServices P C O) (permissions : NamespacePermissions)
    {name : Node C O → String}
    (haccepted : Accepted name (fun operator => (services.flow.policy operator).maxCycles)
      (services.declarations.adjacency (services.flow.gathering services.classes)
        services.flow.capabilities))
    (hacyclic : ∀ operator,
      ¬Relation.TransGen (services.TriggersOffCycle permissions) operator operator)
    (limits : Gather.Limits) :
  ∃ bound, ∀ past gather,
    Gather.OneGather (services.resumed permissions) (services.resumedCaps permissions) past gather →
    Gather.Within (services.resumed permissions) limits past gather →
    gather.launches.length ≤ bound
  := by
  apply Gather.exists_bound_of_launchesBounded
  apply Gather.launchesBounded_of_acyclic
  intro operator hreturns
  apply hacyclic operator
  refine Relation.TransGen.mono ?_ _ _ hreturns
  rintro producer operator ⟨hproducer, hgathers, htriggers⟩
  exact ⟨hproducer, hgathers, offCycle_of_uncapped haccepted hproducer htriggers.uncapped,
    offCycle_of_uncapped haccepted hgathers htriggers.uncapped', htriggers.triggers⟩

end GatherServices

/-! ### A noter -/

/-- Operators that depend on nothing, and run again for what they use, as often as there is
something new. -/
def noterGather (operators : List OperatorId) (uses produces : OperatorId → Finset DataPointType) :
    GatherServices DataPointType CapabilityId OperatorId :=
  { textGather operators none with
    flow :=
      { (textGather operators none).flow with
        uses := uses
        produces := produces
        policy := fun _ => ⟨true, .addedOrUpdated, none⟩ } }

/-- Whatever they use, their graph has no edges. -/
theorem accepted_noter (operators : List OperatorId)
    (uses produces : OperatorId → Finset DataPointType) :
  Accepted (fun _ => "") (fun operatorId =>
      ((noterGather operators uses produces).flow.policy operatorId).maxCycles)
    ((noterGather operators uses produces).declarations.adjacency
      ((noterGather operators uses produces).flow.gathering
        (noterGather operators uses produces).classes)
      (noterGather operators uses produces).flow.capabilities)
  := by
  apply accepted_of_edgeless
  intro node successor hedge
  rw [Declarations.edge_adjacency_iff, Declarations.mem_edges_buildGraph] at hedge
  have hprovides := hedge.2.2
  cases node with
  | operator operator =>
      obtain ⟨required, hrequired, -⟩ := of_decide_eq_true hprovides
      cases successor with
      | operator consumer => cases hrequired
      | capability consumer => cases hrequired
  | capability capability =>
      obtain ⟨required, hrequired, -⟩ := of_decide_eq_true hprovides
      cases successor with
      | operator consumer => cases hrequired
      | capability consumer => cases hrequired

/-- A mailer, and a noter that uses emails. -/
def mailedNoter : GatherServices DataPointType CapabilityId OperatorId :=
  noterGather ["mailer", "noter"] (fun operatorId => if operatorId = "noter" then {"email"} else ∅)
    (fun operatorId => if operatorId = "noter" then {"note"} else {"email"})

/-- The mailer triggers the noter, and nothing else triggers anything. -/
theorem canTrigger_mailedNoter_iff {producer operator : OperatorId} :
  Gather.CanTrigger mailedNoter producer operator ↔ producer ≠ "noter" ∧ operator = "noter"
  := by
  constructor
  · rintro ⟨dataPointType, hdeclared, htriggers⟩
    obtain ⟨declared, hproduces, hleaf⟩ := of_decide_eq_true hdeclared
    obtain ⟨used, hused, hbelow⟩ := of_decide_eq_true (Bool.and_eq_true_iff.mp htriggers).2
    obtain rfl : dataPointType = declared := of_decide_eq_true hleaf
    obtain rfl : dataPointType = used := of_decide_eq_true hbelow
    change dataPointType ∈ if producer = "noter" then {"note"} else {"email"} at hproduces
    change dataPointType ∈ ∅ ∪ if operator = "noter" then {"email"} else ∅ at hused
    rw [Finset.empty_union] at hused
    split at hused
    · rename_i hnoter
      rw [Finset.mem_singleton.mp hused] at hproduces
      refine ⟨?_, hnoter⟩
      rintro rfl
      apply absurd (Finset.mem_singleton.mp hproduces) (by decide)
    · cases hused
  · rintro ⟨hne, rfl⟩
    refine ⟨"email", decide_eq_true ⟨"email", ?_, rfl⟩, rfl⟩
    change "email" ∈ if producer = "noter" then {"note"} else {"email"}
    rw [if_neg hne]
    apply Finset.mem_singleton_self

/-- The mailer triggers the noter, and no more than some number of launches comes of it. -/
theorem launches_bounded_mailed :
  Gather.CanTrigger mailedNoter "mailer" "noter"
    ∧ ∃ bound, ∀ past gather,
      Gather.OneGather (mailedNoter.resumed openPermissions)
        (mailedNoter.resumedCaps openPermissions) past gather →
      Gather.Within (mailedNoter.resumed openPermissions) ⟨fun _ _ => 1, 0, 0⟩ past gather →
      gather.launches.length ≤ bound
  := by
  use canTrigger_mailedNoter_iff.mpr ⟨by decide, rfl⟩
  apply GatherServices.launches_bounded mailedNoter openPermissions (accepted_noter _ _ _)
  have hchain : ∀ {producer operator : OperatorId},
      Relation.TransGen (mailedNoter.TriggersOffCycle openPermissions) producer operator →
      producer ≠ "noter" ∧ operator = "noter" := by
    intro producer operator hchain
    induction hchain with
    | single h => apply canTrigger_mailedNoter_iff.mp h.triggers
    | tail _ h ih => apply absurd ih.2 (canTrigger_mailedNoter_iff.mp h.triggers).1
  intro operator hreturns
  obtain ⟨hne, hnoter⟩ := hchain hreturns
  apply hne hnoter

/-- The noter uses its own notes. -/
def selfTriggering : GatherServices DataPointType CapabilityId OperatorId :=
  noterGather ["noter"] (fun _ => {"note"}) (fun _ => {"note"})

/-- Nothing stands in the way of the noter. -/
structure Unhindered (gather : Gather OperatorId) : Prop where
  inTime : gather.now < gather.deadline
  queue : gather.queue = []
  unarmed : gather.memory.retries.isScheduled "noter" = false
  uncapped : gather.memory.breaker.caps.get? "noter" = none
  window : selfTriggering.windowDue gather.now gather.memory.debounce "noter" = true
  inStep : Gather.InStep gather.epoch gather.state gather.memory

/-- At the top of a pass that will launch the noter: it has not run, or has something to run again
for. -/
structure Spinning (gather : Gather OperatorId) : Prop extends Unhindered gather where
  phase : gather.phase = .head
  idle : gather.memory.running.get? "noter" = none
  due : selfTriggering.hasRun gather.memory "noter" = false
    ∨ ∃ entry, RelevantChange selfTriggering gather.state.store "noter" entry

/-- The noter is running. -/
structure Noting (before gather : Gather OperatorId) : Prop extends Unhindered gather where
  phase : gather.phase = .getting
  tasks : ∃ delta, gather.tasks = before.tasks ++ [⟨"noter", delta, ∅, false, .running⟩]
  running : gather.memory.running.get? "noter"
    = some ⟨before.tasks.length, gather.state.store.revision⟩

/-- The noter is due. -/
theorem isDue_of_spinning {gather : Gather OperatorId} {observed : Dict OperatorId Revision}
    (h : Spinning gather)
    (hkept : WatermarksKept selfTriggering gather.phase gather.state.mirror gather.state.store
      gather.memory observed) :
  selfTriggering.isDue gather.state.mirror gather.memory gather.state.store.snapshot ∅ gather.now
    "noter" = true
  := by
  have hopen : selfTriggering.isOpen gather.memory gather.state.store.snapshot ∅ "noter" = true := by
    have huntripped : gather.memory.breaker.isTripped "noter" = false := by
      rw [CircuitBreaker.isTripped, h.uncapped]
    rw [GatherServices.isOpen]
    change ((gather.memory.running.get? "noter").isNone
      && !gather.memory.breaker.isTripped "noter" && _) = true
    rw [h.idle, huntripped]
    rfl
  rw [GatherServices.isDue, hopen, Bool.true_and]
  change (if gather.memory.retries.isScheduled "noter" = true then _ else _) = true
  rw [h.unarmed, if_neg Bool.false_ne_true]
  rcases h.due with hfirst | ⟨entry, hentry⟩
  · rw [hfirst]
    rfl
  · have hnew : selfTriggering.hasNewData gather.state.mirror gather.memory ∅ "noter" = true := by
      rw [GatherServices.hasNewData, hkept.deltaFor,
        hkept.loaded (by rw [h.phase]; rfl) "noter" List.mem_cons_self]
      by_contra hnot
      rw [Bool.not_eq_true] at hnot
      exact selfTriggering.not_relevantChange rfl hnot entry hentry
    rw [hnew, h.window]
    exact Bool.or_true _

/-- The window of the noter is due as it was before the plan. -/
theorem windows_plan {mirror : SessionStateMirror} {memory : OperatorMemory} {view : DataPointView}
    {available : Finset CapabilityId} {now : Monotonic} {plan : GatherPlan OperatorId}
    (hplan : selfTriggering.plan mirror memory view available now = .ok plan) :
  selfTriggering.windowDue now plan.debounce "noter"
    = selfTriggering.windowDue now memory.debounce "noter"
  := by
  change selfTriggering.planAll mirror memory view available now ["noter"] _ = _ at hplan
  rw [GatherServices.planAll] at hplan
  split at hplan
  · cases hplan
  · rename_i plan' hone
    cases hplan
    exact (GatherServices.planned_planOperator (fun _ => rfl) hone).windows "noter"

/-- The pass launches the noter. -/
theorem noting_pass {gather : Gather OperatorId} {observed : Dict OperatorId Revision}
    (h : Spinning gather)
    (hkept : WatermarksKept selfTriggering gather.phase gather.state.mirror gather.state.store
      gather.memory observed) :
  Noting gather (({ gather with phase := .refreshing } : Gather OperatorId).pass selfTriggering ∅)
  := by
  obtain ⟨plan, hplan⟩ := @GatherServices.plan_eq_ok _ _ _ _ _ selfTriggering gather.state.mirror
    gather.memory gather.state.store.snapshot ∅ gather.now
    (fun operator => ⟨_, hkept.deltaFor ∅ operator⟩)
  have hrunnable : plan.runnable.map Runnable.operator = ["noter"] := by
    rw [GatherServices.runnable_eq_filter hplan]
    change List.filter _ ["noter"] = _
    rw [List.filter_cons, isDue_of_spinning h hkept]
    rfl
  obtain ⟨runnable, hone, hoperator⟩ := List.map_eq_singleton_iff.mp hrunnable
  have hretry : runnable.isRetry = false := by
    have hlaunchable := (GatherServices.plan_runnable hplan).2 runnable
      (by rw [hone]; exact List.mem_singleton_self _)
    rw [hlaunchable.retry, hoperator]
    exact h.unarmed
  have hwindow : selfTriggering.windowDue gather.now plan.debounce "noter" = true := by
    rw [windows_plan hplan, h.window]
  have hregistered : ∀ record,
      (gather.memory.running.set (selfTriggering.operatorId "noter") record).keys.isEmpty = false := by
    intro record
    rw [List.isEmpty_eq_false_iff]
    exact List.ne_nil_of_mem (Dict.mem_keys_set.mpr (Or.inl rfl))
  simp only [Gather.pass, hkept.agrees.snapshot, hkept.agrees.getRevision, hplan, Gather.launchAll,
    hone, List.foldl_cons, List.foldl_nil, Gather.launch, hretry, hoperator]
  refine ⟨⟨h.inTime, h.queue, h.unarmed, h.uncapped, ?window, ?inStep⟩, ?phase, ⟨runnable.delta, rfl⟩,
    Dict.get?_set_self _ _ _⟩
  case window =>
    simp only [Bool.not_false, Bool.true_and]
    split
    · rw [GatherServices.windowDue_eq, DebounceController.clear, Dict.get?_erase, if_pos rfl]
      exact decide_eq_true (le_of_eq (Int.add_zero _))
    · exact hwindow
  case inStep =>
    refine ⟨h.inStep.agrees, h.inStep.current, h.inStep.answers, ?_⟩
    intro operatorId record hget
    rw [Dict.get?_set] at hget
    split at hget
    · cases hget
      exact h.inStep.agrees.rehydrated_le
    · exact h.inStep.observed hget
  case phase => simp only [Gather.nextPhase, hregistered, Bool.not_false, if_true]

/-- The noter is launched. -/
theorem noting_of_spinning {gather : Gather OperatorId} {observed : Dict OperatorId Revision}
    (h : Spinning gather)
    (hkept : WatermarksKept selfTriggering gather.phase gather.state.mirror gather.state.store
      gather.memory observed) :
  ∃ noting, TransitionSystem.run (Gather.step selfTriggering) gather
      [.renew none, .inboxDone none, .refresh ∅ none] = some noting
    ∧ Noting gather noting
  := by
  refine ⟨_, ?_, noting_pass h hkept⟩
  rw [TransitionSystem.run_cons_eq_some]
  use { gather with phase := .inbox }
  constructor
  · simp only [Gather.step, Gather.loopStep, h.phase, if_pos h.inTime]
  · rfl

/-- The note that the noter emits. -/
def noterNote (retrieved : Timestamp) : BaseDataPoint where
  type := "note"
  value := .str "a"
  retrievedBy := "noter"
  firstRetrieved := retrieved
  lastRetrieved := retrieved
  hashed := .str "a"
  hashable := makeHashable_str "a"

/-- What is on the queue once the noter has emitted its note and finished. -/
def noterSignals (retrieved : Timestamp) : List Signal :=
  [.emitted ⟨"noter", ⟨"note", .str "a", "noter", retrieved, retrieved⟩⟩,
    .completed ⟨"noter", none, 0⟩]

/-- The noter emits a note and finishes. -/
theorem taken_of_noting {before gather : Gather OperatorId} (h : Noting before gather)
    (retrieved : Timestamp) :
  ∃ tasks enqueued, tasks.length = before.tasks.length + 1
    ∧ TransitionSystem.run (Gather.step selfTriggering) gather
        [.emit before.tasks.length ⟨"note", .str "a"⟩ retrieved, .finish before.tasks.length,
          .complete before.tasks.length 0, .take]
      = some { gather with
          queue := []
          tasks := tasks
          enqueued := enqueued
          phase := .merging (noterSignals retrieved) }
  := by
  obtain ⟨delta, htasks⟩ := h.tasks
  obtain ⟨epoch, deadline, now, state, memory, queue, tasks, phase, enqueued, presented, recorded⟩ :=
    gather
  obtain rfl : queue = [] := h.queue
  obtain rfl : phase = .getting := h.phase
  have hsignals : enqueued ++ noterSignals retrieved
      = enqueued ++ [.emitted ⟨"noter", ⟨"note", .str "a", "noter", retrieved, retrieved⟩⟩]
        ++ [.completed ⟨"noter", none, 0⟩] := by
    rw [List.append_assoc]
    rfl
  refine ⟨before.tasks ++ [⟨"noter", delta, ∅, false, .finished⟩],
    enqueued ++ noterSignals retrieved, ?_, ?_⟩
  · rw [List.length_append]
    rfl
  · rw [hsignals, TransitionSystem.run_cons_eq_some]
    refine ⟨_, Gather.step_emit_last htasks rfl rfl (Nat.succ_pos 3), ?_⟩
    rw [TransitionSystem.run_cons_eq_some]
    refine ⟨_, Gather.step_finish_last htasks rfl, ?_⟩
    rw [TransitionSystem.run_cons_eq_some]
    refine ⟨_, Gather.step_complete_last rfl rfl 0 (Nat.succ_lt_succ (Nat.succ_pos 2)), ?_⟩
    rfl

/-- The run of the noter is recorded, and it is due again. -/
theorem spinning_of_noting {before gather : Gather OperatorId} (h : Noting before gather)
    {retrieved : Timestamp}
    (hnewer : ∀ existing, gather.state.store.entries.get? (identityKey (noterNote retrieved))
      = some existing → existing.dataPoint.lastRetrieved < retrieved)
    (tasks : List (OperatorTask OperatorId)) (enqueued : List Signal) :
  ∃ gather', TransitionSystem.run (Gather.step selfTriggering)
        { gather with
          queue := []
          tasks := tasks
          enqueued := enqueued
          phase := .merging (noterSignals retrieved) }
        [.merge 0 .none, .record 0 ⟨none, none⟩] = some gather'
    ∧ Spinning gather' ∧ gather'.tasks = tasks
  := by
  obtain ⟨state, hmerge, hmerges⟩ := @MergeState.mergeEmissions_undisturbed selfTriggering.merging
    (gather.call 0 .none) gather.state h.inStep.agrees h.inStep.current rfl
    [⟨some "noter", noterNote retrieved⟩]
  have hwrote := Gather.wrote_mergeEmissions h.inStep.agrees hmerge
  obtain ⟨entry, hentry, habove, htype⟩ := SessionState.exists_updated_of_wrote
    h.inStep.agrees.wellFormed hwrote (hmerges.observes _ (List.mem_singleton_self _)) hnewer
  have hinStep := h.inStep.merges hmerges
  let recording : Gather OperatorId :=
    { gather with
      queue := []
      tasks := tasks
      enqueued := enqueued
      state := state
      presented := gather.presented ++ [⟨some "noter", noterNote retrieved⟩]
      phase := .recording [⟨"noter", none, 0⟩] }
  generalize hrecord : recording.recordCompletion selfTriggering 0 ⟨none, none⟩ ⟨"noter", none, 0⟩
    = outcome
  obtain ⟨result, recorded⟩ := outcome
  have hrecords := Gather.records_recordCompletion selfTriggering recording 0 ⟨none, none⟩
    ⟨"noter", none, 0⟩
  rw [hrecord] at hrecords
  obtain ⟨rfl, -, hinStep'⟩ :=
    @Gather.InStep.records _ _ _ selfTriggering recording recorded hinStep _ _ _ h.running _ hrecords
  refine ⟨recorded.recordRest [], ?_, ?_⟩
  · rw [TransitionSystem.run_cons_eq_some]
    refine ⟨recording, ?_, ?_⟩
    · have hnormal : normalizeAll (emissions (noterSignals retrieved))
          = .ok [⟨some "noter", noterNote retrieved⟩] := rfl
      rw [Gather.call] at hmerge
      simp only [Gather.step, Gather.loopStep, Gather.mergeBatch, hnormal, Gather.call, hmerge]
      rfl
    · rw [TransitionSystem.run_cons_eq_some]
      refine ⟨_, ?_, rfl⟩
      change some (Gather.orLeave _ (recording.recordCompletion selfTriggering 0 ⟨none, none⟩ _)) = _
      rw [hrecord]
      rfl
  · cases hrecords with
    | retried _ hretrying _ => cases hretrying
    | @advanced record audit store hrunning _ _ hstore =>
        obtain rfl := Option.some.inj (h.running.symm.trans hrunning)
        have hset := SessionState.setWatermark_eq_ok hstore
        refine ⟨⟨⟨h.inTime, rfl, h.unarmed, h.uncapped, h.window, hinStep'⟩, rfl, ?_, Or.inr ?_⟩, rfl⟩
        · exact (Dict.get?_erase ..).trans (if_pos rfl)
        · use entry
          constructor
          · change entry ∈ store.entries.values
            rw [hset]
            exact hentry
          · intro watermark hwatermark
            change store.watermarks.get? "noter" = some watermark at hwatermark
            rw [hset, Dict.get?_set_self] at hwatermark
            cases hwatermark
            exact habove
          · refine ⟨"note", Finset.mem_union_right _ (Finset.mem_singleton_self _), ?_⟩
            rw [htype]
            rfl

/-- A pass that launches the noter, the run of it, and the record of the run. -/
def noterCycle (task : ℕ) (retrieved : Timestamp) : List GatherAction :=
  [.renew none, .inboxDone none, .refresh ∅ none]
    ++ ([.emit task ⟨"note", .str "a"⟩ retrieved, .finish task, .complete task 0, .take]
      ++ [.merge 0 .none, .record 0 ⟨none, none⟩])

/-- The noter is launched once more. -/
theorem exists_noterCycle {gather : Gather OperatorId} {observed : Dict OperatorId Revision}
    (h : Spinning gather)
    (hkept : WatermarksKept selfTriggering gather.phase gather.state.mirror gather.state.store
      gather.memory observed) :
  ∃ retrieved gather', TransitionSystem.run (Gather.step selfTriggering) gather
      (noterCycle gather.tasks.length retrieved) = some gather'
    ∧ Spinning gather' ∧ gather'.tasks.length = gather.tasks.length + 1
  := by
  obtain ⟨noting, hlaunch, hnoting⟩ := noting_of_spinning h hkept
  obtain ⟨retrieved, hnewer⟩ : ∃ retrieved, ∀ existing,
      noting.state.store.entries.get? (identityKey (noterNote retrieved)) = some existing →
      existing.dataPoint.lastRetrieved < retrieved := by
    cases hget : noting.state.store.entries.get? (identityKey (noterNote 0)) with
    | none =>
        use 0
        intro existing hexisting
        rw [hget] at hexisting
        cases hexisting
    | some existing =>
        use existing.dataPoint.lastRetrieved + 1
        intro existing' hexisting
        obtain rfl := Option.some.inj (hget.symm.trans hexisting)
        exact Int.lt_succ _
  obtain ⟨tasks, enqueued, hlength, htaken⟩ := taken_of_noting hnoting retrieved
  obtain ⟨gather', hrecord, hspinning, htasks⟩ := spinning_of_noting hnoting hnewer tasks enqueued
  refine ⟨retrieved, gather', ?_, hspinning, ?_⟩
  · rw [noterCycle, TransitionSystem.run_append_eq_some]
    refine ⟨noting, hlaunch, ?_⟩
    rw [TransitionSystem.run_append_eq_some]
    exact ⟨_, htaken, hrecord⟩
  · rw [htasks, hlength]

/-- A gather in which the noter has run for its notes only. -/
structure Spun (caps : Dict OperatorId ℤ) (past : List GatherAction) (gather : Gather OperatorId) :
    Prop where
  begun : Gather.OneGather selfTriggering caps past gather
  spinning : Spinning gather
  emissions : ∀ i, Gather.emissionsOf i past = if i < gather.tasks.length then 1 else 0
  deliveries : Gather.deliveries past = 0
  availability : availability past = ⟨∅, 0⟩

/-- It can run once more. -/
theorem Spun.cycle {caps : Dict OperatorId ℤ} {past : List GatherAction}
    {gather : Gather OperatorId} (h : Spun caps past gather) :
  ∃ past' gather', Spun caps past' gather' ∧ gather'.tasks.length = gather.tasks.length + 1
  := by
  obtain ⟨observed, hkept⟩ := h.begun.throughout.kept
  obtain ⟨retrieved, gather', hrun, hspinning, hlength⟩ := exists_noterCycle h.spinning hkept
  refine ⟨past ++ noterCycle gather.tasks.length retrieved, gather', ⟨?_, hspinning, ?_, ?_, ?_⟩,
    hlength⟩
  · have hdeclared : ∀ operator, selfTriggering.declarations.emissionDeclared operator
        (selfTriggering.leafClass "note") = true :=
      fun _ => decide_eq_true ⟨"note", Finset.mem_singleton_self _, rfl⟩
    apply h.begun.append _ _ hrun
    · simp [noterCycle]
    · simp [noterCycle, Gather.EmitsDeclared, hdeclared]
  · intro i
    have hone : (noterCycle gather.tasks.length retrieved).countP (Gather.isEmissionOf i)
        = if gather.tasks.length = i then 1 else 0 := by
      simp [noterCycle, Gather.isEmissionOf, List.countP_cons]
    rw [Gather.emissionsOf, List.countP_append, ← Gather.emissionsOf, h.emissions, hlength, hone]
    split_ifs <;> omega
  · rw [Gather.deliveries, List.map_append, List.sum_append, ← Gather.deliveries, h.deliveries]
    rfl
  · rw [Orcastork.availability, List.foldl_append, ← Orcastork.availability, h.availability]
    rfl

/-- A gather begins so. -/
theorem spun_begun (caps : Dict OperatorId ℤ) (hcap : caps.get? "noter" = none) :
  ∃ gather, Spun caps [] gather ∧ gather.tasks.length = 0
  := by
  have hbegin : (Succession.initial selfTriggering 1 caps 0).gather.step selfTriggering (.begin' 100)
      = some ((Succession.initial selfTriggering 1 caps 0).gather.beginGather selfTriggering 100) := rfl
  have hrun : TransitionSystem.run (Succession.step selfTriggering)
      (.initial selfTriggering 1 caps 0) [] = some (.initial selfTriggering 1 caps 0) := rfl
  have hbegun := Gather.begun_of_step (watermarksKept_run hrun) rfl hbegin
  refine ⟨_, ⟨.begun hrun rfl hbegin, ?_, ?_, rfl, rfl⟩, congrArg List.length hbegun.tasks⟩
  · refine ⟨⟨?inTime, hbegun.queue, ?unarmed, ?uncapped, rfl, ?inStep⟩, hbegun.phase, ?idle,
      Or.inl rfl⟩
    case inTime => exact (by decide : (0 : Monotonic) < 100)
    case unarmed =>
      rw [hbegun.retries]
      rfl
    case uncapped =>
      rw [hbegun.caps]
      exact hcap
    case inStep =>
      have hstart := @Gather.InStep.start _ _ _ selfTriggering _ _
        SessionState.initial_wellFormed current_initial caps 0
      exact hstart.begun rfl rfl rfl
    case idle =>
      rw [hbegun.running]
      rfl
  · intro i
    rw [hbegun.tasks]
    rfl

/-- The noter is launched as often as one likes. -/
theorem exists_spun (caps : Dict OperatorId ℤ) (hcap : caps.get? "noter" = none) (n : ℕ) :
  ∃ past gather, Spun caps past gather ∧ gather.tasks.length = n
  := by
  induction n with
  | zero =>
      obtain ⟨gather, hspun, htasks⟩ := spun_begun caps hcap
      exact ⟨[], gather, hspun, htasks⟩
  | succ n ih =>
      obtain ⟨past, gather, hspun, rfl⟩ := ih
      obtain ⟨past', gather', hspun', hlength⟩ := hspun.cycle
      exact ⟨past', gather', hspun', hlength⟩

/-- The graph of the noter is accepted, as it depends on nothing, and it has no cap; but it runs again
for its own notes, and no number bounds how often. -/
theorem noter_reruns_unbounded :
  Accepted (fun _ => "")
      (fun operatorId => (selfTriggering.flow.policy operatorId).maxCycles)
      (selfTriggering.declarations.adjacency
        (selfTriggering.flow.gathering selfTriggering.classes) selfTriggering.flow.capabilities)
    ∧ ¬∃ bound, ∀ past gather,
      Gather.OneGather (selfTriggering.resumed openPermissions)
        (selfTriggering.resumedCaps openPermissions) past gather →
      Gather.Within (selfTriggering.resumed openPermissions) ⟨fun _ _ => 1, 0, 0⟩ past gather →
      gather.launches.length ≤ bound
  := by
  use accepted_noter _ _ _
  rintro ⟨bound, hbound⟩
  have hresumed : selfTriggering.resumed openPermissions = selfTriggering := by
    have hgathering : selfTriggering.flow.gathering selfTriggering.classes = ["noter"] := rfl
    rw [GatherServices.resumed, hgathering]
    rfl
  have hcap : (selfTriggering.resumedCaps openPermissions).get? "noter" = none := by
    rw [Option.eq_none_iff_forall_not_mem]
    intro cap hcap
    have hsome := (get?_circuitCaps selfTriggering.classes.operatorId_injective
      (selfTriggering.resumed openPermissions).gathering (selfTriggering.resumedGraph openPermissions)
      "noter" cap).mp hcap
    cases hsome.2.2
  obtain ⟨past, gather, hspun, hlength⟩ := exists_spun _ hcap (bound + 1)
  rw [hresumed] at hbound
  have hle := hbound past gather hspun.begun (by
    constructor
    · intro i launched _
      rw [hspun.emissions]
      split
      · exact le_refl 1
      · exact Nat.zero_le 1
    · exact hspun.deliveries.le
    · rw [hspun.availability])
  rw [Gather.launches, List.length_map, hlength] at hle
  omega

end Orcastork
