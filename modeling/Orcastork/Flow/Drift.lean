import Mathlib.Data.Fintype.Powerset
import Orcastork.Flow.Legibility
import Orcastork.Orchestrator.Pruning

/-!
# Drift

A resume whose flow has the fingerprint of the stored one is driven as if nothing had changed,
so equal fingerprints should mean one shape: the same graph, the same gather set, the same
rerun triggers and the same completion. The text names what an operator depends on, produces
and requires and its policy, but not what it `uses`, nor that it is an `Aggregator` and what it
consumes, although the triggers and the gather set follow from these. And it names a class without
its module and a condition by its class alone, so that two flows may mean different things by one
name. Flows that agree on what is left out, and mean the same by the names, have one shape if they
have one fingerprint (`fingerprint_sound_iff`).
-/

namespace Orcastork

namespace FlowDefinition

variable {P C O : Type} {classes : Classes P C O} {flow flow' : FlowDefinition P C O}

mutual

/-- A condition says the same of the classes that are present in every flow of the classes. -/
theorem isSatisfied_declarations : ∀ (condition : CompletionCondition P) (present : Finset P),
  condition.isSatisfied (flow.declarations classes) present
    = condition.isSatisfied (flow'.declarations classes) present
  | .typePresent _, _ => rfl
  | .custom _, _ => rfl
  | .allOf children, present => by
      rw [CompletionCondition.isSatisfied, CompletionCondition.isSatisfied,
        (satisfied_declarations children present).1]
  | .anyOf children, present => by
      rw [CompletionCondition.isSatisfied, CompletionCondition.isSatisfied,
        (satisfied_declarations children present).2]

/-- Some conditions, or all of them, are satisfied in every flow of the classes alike. -/
theorem satisfied_declarations :
  ∀ (children : List (CompletionCondition P)) (present : Finset P),
  CompletionCondition.allSatisfied (flow.declarations classes) present children
      = CompletionCondition.allSatisfied (flow'.declarations classes) present children
    ∧ CompletionCondition.anySatisfied (flow.declarations classes) present children
      = CompletionCondition.anySatisfied (flow'.declarations classes) present children
  | [], _ => ⟨rfl, rfl⟩
  | child :: children, present => by
      obtain ⟨hall, hany⟩ := satisfied_declarations children present
      rw [CompletionCondition.allSatisfied, CompletionCondition.allSatisfied,
        CompletionCondition.anySatisfied, CompletionCondition.anySatisfied, hall, hany,
        isSatisfied_declarations child present]
      exact ⟨rfl, rfl⟩

end

variable [DecidableEq P] [DecidableEq C] [DecidableEq O]
variable (classes flow flow')

/-! ### The shape of a flow -/

/-- The graph of a flow. -/
def graph : DependencyGraph C O :=
  (flow.declarations classes).buildGraph flow.operators flow.capabilities

/-- The gather set of a flow, pruned. -/
def gathering : List O :=
  (flow.declarations classes).prunedGathering flow.operators flow.capabilities
    (normalizeCompletion flow.completesWhen)

/-- The scheduler sees no difference between two flows. -/
structure SameShape : Prop where
  graph : flow.graph classes = flow'.graph classes
  gathering : ∀ operator, operator ∈ flow.gathering classes ↔ operator ∈ flow'.gathering classes
  retriggers : ∀ operator ∈ flow.operators, ∀ delta,
    flow.rerunEligible classes operator delta = flow'.rerunEligible classes operator delta
  completion : ∀ present, flow.isSatisfied classes present = flow'.isSatisfied classes present

/-- Two flows agree on what the text omits: the optional inputs of the operators that rerun, and
which operators are aggregators of what. -/
structure SameOmitted : Prop where
  uses : ∀ operator ∈ flow.operators, (flow.policy operator).rerunOnNewData = true →
    flow.uses operator = flow'.uses operator
  aggregator : ∀ operator ∈ flow.operators,
    flow.aggregator operator = flow'.aggregator operator

/-- The run of a flow that the pruning is about. -/
def session : Session P C O where
  declarations := flow.declarations classes
  operators := flow.operators
  capabilities := flow.capabilities
  completesWhen := normalizeCompletion flow.completesWhen
  permitted := ∅
  initial := ∅

variable {classes flow flow'}

/-! ### Alike flows -/

omit [DecidableEq P] [DecidableEq C] [DecidableEq O] in
theorem Alike.symm (h : flow.Alike flow') :
  flow'.Alike flow
  := by
  constructor
  · exact h.operators.symm
  · exact h.capabilities.symm
  · intro operator hmem
    obtain ⟨hdependsOn, hproduces, hrequires, hpolicy⟩ :=
      h.operator operator (h.operators.mem_iff.mpr hmem)
    exact ⟨hdependsOn.symm, hproduces.symm, hrequires.symm, hpolicy.symm⟩
  · intro capability hmem
    obtain ⟨hdependsOn, hrequires⟩ :=
      h.capability capability (h.capabilities.mem_iff.mpr hmem)
    exact ⟨hdependsOn.symm, hrequires.symm⟩
  · exact h.completesWhen.symm

omit [DecidableEq P] [DecidableEq C] [DecidableEq O] in
theorem SameOmitted.symm (halike : flow.Alike flow') (h : flow.SameOmitted flow') :
  flow'.SameOmitted flow
  := by
  constructor
  · intro operator hmem hrerun
    have hmem' := halike.operators.mem_iff.mpr hmem
    rw [← (halike.operator operator hmem').policy] at hrerun
    exact (h.uses operator hmem' hrerun).symm
  · intro operator hmem
    exact (h.aggregator operator (halike.operators.mem_iff.mpr hmem)).symm

omit [DecidableEq C] [DecidableEq O] in
/-- Alike operators produce the same. -/
theorem effectiveProduces_congr {operator : O} (h : flow.SameOperator flow' operator) :
  (flow.declarations classes).effectiveProduces operator
    = (flow'.declarations classes).effectiveProduces operator
  := by
  change (flow.produces operator).biUnion _ = (flow'.produces operator).biUnion _
  rw [h.produces]
  rfl

/-- Alike flows have one graph. -/
theorem Alike.graph_eq (h : flow.Alike flow') :
  flow.graph classes = flow'.graph classes
  := by
  have hnodes : (flow.operators.map Node.operator
        ++ flow.capabilities.map Node.capability).toFinset
      = (flow'.operators.map Node.operator
        ++ flow'.capabilities.map (Node.capability : C → Node C O)).toFinset :=
    List.toFinset_eq_of_perm _ _ ((h.operators.map _).append (h.capabilities.map _))
  have hprovides : ∀ provider ∈ (flow.graph classes).nodes,
      ∀ consumer ∈ (flow.graph classes).nodes,
        (flow.declarations classes).provides provider consumer
          = (flow'.declarations classes).provides provider consumer := by
    intro provider hprovider consumer hconsumer
    have hdependsOn : (flow.declarations classes).nodeDependsOn consumer
        = (flow'.declarations classes).nodeDependsOn consumer := by
      obtain ⟨operator, hmem, rfl⟩ | ⟨capability, hmem, rfl⟩ :=
        Declarations.mem_nodes_buildGraph.mp hconsumer
      · exact (h.operator operator hmem).dependsOn
      · exact (h.capability capability hmem).dependsOn
    have hrequires : (flow.declarations classes).nodeRequires consumer
        = (flow'.declarations classes).nodeRequires consumer := by
      obtain ⟨operator, hmem, rfl⟩ | ⟨capability, hmem, rfl⟩ :=
        Declarations.mem_nodes_buildGraph.mp hconsumer
      · exact (h.operator operator hmem).requires
      · exact (h.capability capability hmem).requires
    obtain ⟨operator, hmem, rfl⟩ | ⟨capability, hmem, rfl⟩ :=
      Declarations.mem_nodes_buildGraph.mp hprovider
    · rw [Declarations.provides, Declarations.provides, hdependsOn,
        effectiveProduces_congr (h.operator operator hmem)]
      rfl
    · rw [Declarations.provides, Declarations.provides, hrequires]
      rfl
  rw [graph, graph, Declarations.buildGraph, Declarations.buildGraph]
  simp only [← hnodes, DependencyGraph.mk.injEq, true_and]
  apply Finset.filter_congr
  intro edge hedge
  rw [Finset.mem_product] at hedge
  rw [hprovides edge.1 hedge.1 edge.2 hedge.2]

omit [DecidableEq C] [DecidableEq O] in
/-- The completion conditions of alike flows key on the same classes. -/
theorem Alike.referencedTypes_eq (halike : flow.Alike flow') :
  (normalizeCompletion flow.completesWhen).map CompletionCondition.referencedTypes
    = (normalizeCompletion flow'.completesWhen).map CompletionCondition.referencedTypes
  := by
  have hunnamed : CompletionCondition.referencedTypes (P := P)
      = CompletionCondition.referencedTypes ∘ CompletionCondition.unnamed := by
    funext condition
    exact (CompletionCondition.referencedTypes_unnamed condition).symm
  rw [hunnamed, ← Option.map_map, ← Option.map_map, halike.completesWhen]

omit [DecidableEq P] [DecidableEq C] [DecidableEq O] in
/-- The completion conditions of alike flows say the same. -/
theorem Alike.isSatisfied_eq (halike : flow.Alike flow') (present : Finset P) :
  flow.isSatisfied classes present = flow'.isSatisfied classes present
  := by
  have hunnamed : ∀ flow : FlowDefinition P C O, flow.isSatisfied classes present
      = ((normalizeCompletion flow.completesWhen).map CompletionCondition.unnamed).map
        (fun condition => condition.isSatisfied (flow.declarations classes) present) := by
    intro flow
    rw [isSatisfied, Option.map_map]
    congr 1
    funext condition
    exact CompletionCondition.isSatisfied_unnamed condition |>.symm
  rw [hunnamed, hunnamed, halike.completesWhen]
  congr 1
  funext condition
  exact isSatisfied_declarations condition present

omit [DecidableEq C] in
/-- Alike flows with the same aggregators have the same sinks. -/
theorem SameOmitted.sinks_eq (halike : flow.Alike flow') (h : flow.SameOmitted flow') :
  (flow.declarations classes).sinks flow.operators (normalizeCompletion flow.completesWhen)
    = (flow'.declarations classes).sinks flow'.operators
        (normalizeCompletion flow'.completesWhen)
  := by
  have haggregators : ((flow.declarations classes).aggregators flow.operators).toFinset
      = ((flow'.declarations classes).aggregators flow'.operators).toFinset := by
    ext operator
    rw [List.mem_toFinset, List.mem_toFinset, Declarations.aggregators, Declarations.aggregators,
      List.mem_filter, List.mem_filter, ← halike.operators.mem_iff]
    apply and_congr_right
    intro hmem
    change (flow.aggregator operator).isSome = true ↔ (flow'.aggregator operator).isSome = true
    rw [h.aggregator operator hmem]
  have hlisted : ∀ operator ∈ ((flow'.declarations classes).aggregators
      flow'.operators).toFinset, operator ∈ flow.operators := by
    intro operator hmem
    rw [← haggregators, List.mem_toFinset] at hmem
    exact List.mem_of_mem_filter hmem
  have hdeclared : ((flow'.declarations classes).aggregators flow'.operators).toFinset.biUnion
        (fun aggregator => (((flow.declarations classes).aggregator aggregator).map
          AggregatorDeclaration.consumes).getD ∅)
      = ((flow'.declarations classes).aggregators flow'.operators).toFinset.biUnion
        (fun aggregator => (((flow'.declarations classes).aggregator aggregator).map
          AggregatorDeclaration.consumes).getD ∅) := by
    apply Finset.biUnion_congr rfl
    intro operator hmem
    change ((flow.aggregator operator).map _).getD ∅ = ((flow'.aggregator operator).map _).getD ∅
    rw [h.aggregator operator (hlisted operator hmem)]
  have hgates : ((flow'.declarations classes).aggregators flow'.operators).toFinset.biUnion
        (flow.declarations classes).dependsOn
      = ((flow'.declarations classes).aggregators flow'.operators).toFinset.biUnion
        (flow'.declarations classes).dependsOn := by
    apply Finset.biUnion_congr rfl
    intro operator hmem
    exact (halike.operator operator (hlisted operator hmem)).dependsOn
  have hcompletion : (normalizeCompletion flow.completesWhen).elim (some ∅)
        CompletionCondition.referencedTypes
      = (normalizeCompletion flow'.completesWhen).elim (some ∅)
        CompletionCondition.referencedTypes := by
    have helim : ∀ completion : Option (CompletionCondition P),
        completion.elim (some ∅) CompletionCondition.referencedTypes
          = (completion.map CompletionCondition.referencedTypes).getD (some ∅) := by
      intro completion
      cases completion with
      | none => rfl
      | some condition => rfl
    rw [helim, helim, halike.referencedTypes_eq]
  rw [Declarations.sinks, Declarations.sinks, haggregators, hdeclared, hgates, hcompletion]

omit [DecidableEq P] [DecidableEq C] [DecidableEq O] in
/-- Alike flows with the same aggregators gather the same operators before pruning. -/
theorem SameOmitted.mem_gathering (halike : flow.Alike flow') (h : flow.SameOmitted flow')
    {operator : O} (hmem : operator ∈ (flow.declarations classes).gathering flow.operators) :
  operator ∈ (flow'.declarations classes).gathering flow'.operators
  := by
  rw [Declarations.gathering, List.mem_filter] at hmem ⊢
  obtain ⟨hlisted, hkeep⟩ := hmem
  use halike.operators.mem_iff.mp hlisted
  change ((flow'.aggregator operator).map AggregatorDeclaration.interimRefresh).getD true = true
  rw [← h.aggregator operator hlisted]
  exact hkeep

omit [DecidableEq C] in
/-- An operator that feeds the sinks of a flow feeds those of an alike one with the same
aggregators. -/
theorem SameOmitted.feeds (halike : flow.Alike flow') (h : flow.SameOmitted flow')
    {operator : O} (hfeeds : (flow.session classes).Feeds operator)
    (hmem : operator ∈ flow.operators) :
  (flow'.session classes).Feeds operator
  := by
  have hsinks : (flow'.session classes).declarations.sinks (flow'.session classes).operators
        (flow'.session classes).completesWhen
      = (flow.session classes).declarations.sinks (flow.session classes).operators
        (flow.session classes).completesWhen := (h.sinks_eq halike).symm
  have hproduces : ∀ {operator need}, operator ∈ flow.operators →
      (flow.declarations classes).satisfies
        ((flow.declarations classes).effectiveProduces operator) need = true →
      (flow'.declarations classes).satisfies
        ((flow'.declarations classes).effectiveProduces operator) need = true := by
    intro operator need hmem hsatisfies
    rw [← effectiveProduces_congr (halike.operator operator hmem)]
    exact hsatisfies
  induction hfeeds with
  | unpruned hnone =>
      apply Session.Feeds.unpruned
      rw [hsinks]
      exact hnone
  | @aggregator operator haggregator =>
      apply Session.Feeds.aggregator
      change (flow'.aggregator operator).isSome = true
      rw [← h.aggregator operator hmem]
      exact haggregator
  | sink hsome hneed hsatisfies =>
      rw [← hsinks] at hsome
      apply Session.Feeds.sink hsome hneed
      exact hproduces hmem hsatisfies
  | @input operator consumer need hconsumer _ hneed hsatisfies ih =>
      have hlisted : consumer ∈ flow.operators := List.mem_of_mem_filter hconsumer
      apply Session.Feeds.input (h.mem_gathering halike hconsumer) (ih hlisted) _
        (hproduces hmem hsatisfies)
      change need ∈ flow'.dependsOn consumer
      rw [← (halike.operator consumer hlisted).dependsOn]
      exact hneed

/-- A flow gathers the operators that feed its sinks. -/
theorem mem_gathering_iff {operator : O} :
  operator ∈ flow.gathering classes
    ↔ operator ∈ (flow.declarations classes).gathering flow.operators
      ∧ (flow.session classes).Feeds operator
  := by
  have hpruned : operator ∈ (flow.session classes).pruned
      ↔ operator ∈ (flow.session classes).gathering ∧ (flow.session classes).Feeds operator :=
    Session.mem_pruned_iff
  exact hpruned

/-- What an alike flow with the same aggregators gathers, the flow gathers. -/
theorem SameOmitted.mem_pruned (halike : flow.Alike flow') (h : flow.SameOmitted flow')
    {operator : O} (hmem : operator ∈ flow.gathering classes) :
  operator ∈ flow'.gathering classes
  := by
  obtain ⟨hgathering, hfeeds⟩ := mem_gathering_iff.mp hmem
  apply mem_gathering_iff.mpr
  use h.mem_gathering halike hgathering
  exact h.feeds halike hfeeds (List.mem_of_mem_filter hgathering)

/-- Alike flows that agree on what the text omits have one shape. -/
theorem SameOmitted.sameShape (halike : flow.Alike flow') (h : flow.SameOmitted flow') :
  flow.SameShape classes flow'
  := by
  constructor
  · exact halike.graph_eq
  · intro operator
    constructor
    · exact h.mem_pruned halike
    · exact (h.symm halike).mem_pruned halike.symm
  · intro operator hmem delta
    have hsame := halike.operator operator hmem
    rw [rerunEligible, rerunEligible, ← hsame.policy]
    cases hrerun : (flow.policy operator).rerunOnNewData with
    | false => rfl
    | true =>
        rw [hasRelevantNewData, hasRelevantNewData, ← hsame.policy, ← hsame.dependsOn,
          ← h.uses operator hmem hrerun]
  · exact halike.isSatisfied_eq

/-! ### Flows the fingerprint does not tell apart -/

/-- A flow with its operators declared aggregators, or not, by `aggregator`. -/
def redeclared (flow : FlowDefinition P C O)
    (aggregator : O → Option (AggregatorDeclaration P)) : FlowDefinition P C O :=
  { flow with aggregator := aggregator }

omit [DecidableEq P] [DecidableEq C] [DecidableEq O] in
/-- Whether an operator is an aggregator does not show in the fingerprint. -/
theorem fingerprint_redeclared (aggregator : O → Option (AggregatorDeclaration P)) :
  (flow.redeclared aggregator).fingerprint classes = flow.fingerprint classes
  := rfl

/-- Declared otherwise, a flow with an operator gathers other operators. -/
theorem exists_redeclared (h : flow.operators ≠ []) :
  ∃ aggregator, ¬flow.SameShape classes (flow.redeclared aggregator)
  := by
  obtain ⟨operator, hmem⟩ := List.exists_mem_of_ne_nil _ h
  by_cases hgathered : operator ∈ flow.gathering classes
  · -- declared an aggregator of the end, it is gathered no longer
    use fun _ => some ⟨false, ∅⟩
    intro hshape
    have hpruned := mem_gathering_iff.mp ((hshape.gathering operator).mp hgathered)
    have hinterim := (List.mem_filter.mp hpruned.1).2
    cases hinterim
  · -- without aggregators nothing is dropped
    use fun _ => none
    intro hshape
    apply hgathered
    apply (hshape.gathering operator).mpr
    apply mem_gathering_iff.mpr
    constructor
    · exact List.mem_filter.mpr ⟨hmem, rfl⟩
    · apply Session.Feeds.unpruned
      have hnone : ((flow.redeclared (fun _ => none)).declarations classes).aggregators
          flow.operators = [] := List.filter_eq_nil_iff.mpr (fun _ _ => Bool.false_ne_true)
      change ((flow.redeclared (fun _ => none)).declarations classes).sinks flow.operators _ = none
      rw [Declarations.sinks, hnone]
      rfl

omit [DecidableEq P] [DecidableEq C] [DecidableEq O] in
/-- Declared otherwise, a flow has the same names. -/
theorem Legible.redeclared (h : flow.Legible classes)
    (aggregator : O → Option (AggregatorDeclaration P)) :
  (flow.redeclared aggregator).Legible classes
  := ⟨h.qualname, h.capabilityName, h.operatorId, h.conditions⟩

omit [DecidableEq P] [DecidableEq C] [DecidableEq O] in
theorem ToldApart.redeclared (h : flow.ToldApart classes flow)
    (aggregator : O → Option (AggregatorDeclaration P)) :
  flow.ToldApart classes (flow.redeclared aggregator)
  := ⟨h.dataPoints, h.capabilities, h.conditions⟩

/-- A flow with another completion condition. -/
def completing (flow : FlowDefinition P C O) (completesWhen : CompletesWhen P) :
    FlowDefinition P C O :=
  { flow with completesWhen := some completesWhen }

omit [DecidableEq P] [DecidableEq C] [DecidableEq O] in
/-- A flow that is complete when a class is present has the fingerprint of one that waits for
another class of that name. -/
theorem fingerprint_completing_type {dataPointType dataPointType' : P}
    (hname : classes.qualname dataPointType = classes.qualname dataPointType')
    (sha256 : String → String) :
  (flow.completing (.dataPointType dataPointType)).fingerprint classes sha256
    = (flow.completing (.dataPointType dataPointType')).fingerprint classes sha256
  := by
  have hline : (flow.completing (.dataPointType dataPointType)).completionLine classes
      = (flow.completing (.dataPointType dataPointType')).completionLine classes := by
    change "completes_when " ++ ("TypePresent(" ++ classes.qualname dataPointType ++ ")")
      = "completes_when " ++ ("TypePresent(" ++ classes.qualname dataPointType' ++ ")")
    rw [hname]
  rw [fingerprint, fingerprint, lines, lines, hline]
  rfl

/-- Flows that wait for two classes have one shape only if each class is below the other. -/
theorem SameShape.issubclass {dataPointType dataPointType' : P}
    (h : (flow.completing (.dataPointType dataPointType)).SameShape classes
      (flow.completing (.dataPointType dataPointType'))) :
  classes.dataPoints.issubclass dataPointType dataPointType' = true
    ∧ classes.dataPoints.issubclass dataPointType' dataPointType = true
  := by
  have hsatisfies : ∀ present, (flow.declarations classes).satisfies present dataPointType
      = (flow.declarations classes).satisfies present dataPointType' := by
    intro present
    exact Option.some.inj (h.completion present)
  have hself : ∀ t required, (flow.declarations classes).satisfies {t} required
      = classes.dataPoints.issubclass t required := by
    intro t required
    rw [Declarations.satisfies]
    simp only [Finset.mem_singleton, exists_eq_left, Bool.decide_eq_true]
    rfl
  constructor
  · rw [← hself, ← hsatisfies, hself]
    exact classes.dataPoints.issubclass_refl dataPointType
  · rw [← hself, hsatisfies, hself]
    exact classes.dataPoints.issubclass_refl dataPointType'

omit [DecidableEq P] [DecidableEq C] [DecidableEq O] in
/-- A flow with a condition of a class of its own has the fingerprint of one with another
condition of that text. -/
theorem fingerprint_completing_custom {condition condition' : CustomCondition P}
    (htext : condition.text = condition'.text) (sha256 : String → String) :
  (flow.completing (.condition (.custom condition))).fingerprint classes sha256
    = (flow.completing (.condition (.custom condition'))).fingerprint classes sha256
  := by
  have hline : (flow.completing (.condition (.custom condition))).completionLine classes
      = (flow.completing (.condition (.custom condition'))).completionLine classes := by
    change "completes_when " ++ condition.text = "completes_when " ++ condition'.text
    rw [htext]
  rw [fingerprint, fingerprint, lines, lines, hline]
  rfl

/-- Flows with conditions of classes of their own have one shape if these say the same. -/
theorem sameShape_completing_custom_iff {condition condition' : CustomCondition P} :
  (flow.completing (.condition (.custom condition))).SameShape classes
      (flow.completing (.condition (.custom condition')))
    ↔ condition.isSatisfied = condition'.isSatisfied
  := by
  constructor
  · intro hshape
    funext present
    exact Option.some.inj (hshape.completion present)
  · intro hsame
    have hunnamed : (CompletionCondition.custom condition).unnamed
        = (CompletionCondition.custom condition').unnamed := by
      rw [CompletionCondition.unnamed, CompletionCondition.unnamed, hsame]
    apply SameOmitted.sameShape
    · exact ⟨List.Perm.refl _, List.Perm.refl _, fun _ _ => ⟨rfl, rfl, rfl, rfl⟩,
        fun _ _ => ⟨rfl, rfl⟩, congrArg some hunnamed⟩
    · exact ⟨fun _ _ _ => rfl, fun _ _ => rfl⟩

/-- The order of operators and capabilities does not show in a fingerprint, if capabilities that
are listed under one name have one line; among legible flows only then. It tells a flow from all
of another shape that it shares its names with exactly when the flow lists no operator, and flows
that agree on what the text omits, and mean the same by the names, from those of another shape.
Flows that mean different things by the name of their completion condition are not told apart. -/
theorem fingerprint_sound_iff {P C O : Type} [DecidableEq P] [DecidableEq C] [DecidableEq O]
    {classes : Classes P C O} {sha256 : String → String} (hsha256 : Function.Injective sha256) :
  (∀ flow : FlowDefinition P C O, flow.ListsApart classes →
      ∀ operators capabilities, flow.operators.Perm operators →
        flow.capabilities.Perm capabilities →
        (flow.reordered operators capabilities).fingerprint classes sha256
          = flow.fingerprint classes sha256)
    ∧ (∀ flow : FlowDefinition P C O, flow.Legible classes →
      (∀ operators capabilities, flow.operators.Perm operators →
        flow.capabilities.Perm capabilities →
        (flow.reordered operators capabilities).fingerprint classes sha256
          = flow.fingerprint classes sha256) →
      flow.ListsApart classes)
    ∧ (∀ flow : FlowDefinition P C O, flow.Legible classes → flow.ToldApart classes flow →
      ((∀ flow' : FlowDefinition P C O, flow'.Legible classes → flow.ToldApart classes flow' →
          flow.fingerprint classes sha256 = flow'.fingerprint classes sha256 →
          flow.SameShape classes flow')
        ↔ flow.operators = []))
    ∧ (∀ flow flow' : FlowDefinition P C O, flow.Legible classes → flow'.Legible classes →
      flow.ToldApart classes flow' → flow.SameOmitted flow' →
      flow.fingerprint classes sha256 = flow'.fingerprint classes sha256 →
      flow.SameShape classes flow')
    ∧ (∀ (flow : FlowDefinition P C O) (dataPointType dataPointType' : P),
      classes.qualname dataPointType = classes.qualname dataPointType' →
      (flow.completing (.dataPointType dataPointType)).fingerprint classes sha256
          = (flow.completing (.dataPointType dataPointType')).fingerprint classes sha256
        ∧ ((flow.completing (.dataPointType dataPointType)).SameShape classes
            (flow.completing (.dataPointType dataPointType')) →
          classes.dataPoints.issubclass dataPointType dataPointType' = true
            ∧ classes.dataPoints.issubclass dataPointType' dataPointType = true))
    ∧ ∀ (flow : FlowDefinition P C O) (condition condition' : CustomCondition P),
      condition.text = condition'.text →
      (flow.completing (.condition (.custom condition))).fingerprint classes sha256
          = (flow.completing (.condition (.custom condition'))).fingerprint classes sha256
        ∧ ((flow.completing (.condition (.custom condition))).SameShape classes
            (flow.completing (.condition (.custom condition')))
          ↔ condition.isSatisfied = condition'.isSatisfied)
  := by
  have hagree : ∀ flow flow' : FlowDefinition P C O, flow.Legible classes →
      flow'.Legible classes → flow.ToldApart classes flow' → flow.SameOmitted flow' →
      flow.fingerprint classes sha256 = flow'.fingerprint classes sha256 →
      flow.SameShape classes flow' := by
    intro flow flow' h h' hapart homitted hfingerprint
    exact homitted.sameShape (alike_of_fingerprint hsha256 h h' hapart hfingerprint)
  refine ⟨?_, ?_, ?_, hagree, ?_, ?_⟩
  · intro flow h operators capabilities hoperators hcapabilities
    exact fingerprint_reordered h hoperators hcapabilities
  · intro flow h hall
    exact listsApart_of_fingerprint hsha256 h hall
  · intro flow h hapart
    constructor
    · intro hsound
      by_contra hne
      obtain ⟨aggregator, hother⟩ :
          ∃ aggregator, ¬flow.SameShape classes (flow.redeclared aggregator) :=
        exists_redeclared hne
      apply hother
      apply hsound _ (h.redeclared aggregator) (hapart.redeclared aggregator)
      exact (congrFun (fingerprint_redeclared aggregator) sha256).symm
    · intro hnil flow' h' hapart' hfingerprint
      apply hagree flow flow' h h' hapart' _ hfingerprint
      constructor
      · intro operator hmem
        rw [hnil] at hmem
        exact absurd hmem List.not_mem_nil
      · intro operator hmem
        rw [hnil] at hmem
        exact absurd hmem List.not_mem_nil
  · intro flow dataPointType dataPointType' hname
    use fingerprint_completing_type hname sha256
    exact SameShape.issubclass
  · intro flow condition condition' htext
    use fingerprint_completing_custom htext sha256
    exact sameShape_completing_custom_iff

/-- The classes of a process with one DataPoint class and one operator. -/
def chatClasses : Classes Unit Unit Unit where
  dataPoints := .flat Unit
  abstractTypes := ∅
  registeredLeaves := [()]
  qualname := fun _ => "ChatAnswerDataPoint"
  capabilities := .flat Unit
  hasCapabilityId := fun _ => true
  capabilityId := fun _ => "chat"
  capabilityQualname := fun _ => "ChatCapability"
  operatorId := fun _ => "scorer"
  operatorId_injective := fun _ _ _ => rfl

/-- A flow whose operator reruns on new answers if it uses them. -/
def chatFlow (uses : Finset Unit) : FlowDefinition Unit Unit Unit where
  operators := [()]
  capabilities := [()]
  completesWhen := some (.dataPointType ())
  dependsOn := fun _ => ∅
  uses := fun _ => uses
  produces := fun _ => {()}
  requires := fun _ => {()}
  policy := fun _ => ⟨true, .addedOrUpdated, none⟩
  aggregator := fun _ => none
  capabilityDependsOn := fun _ => ∅
  capabilityRequires := fun _ => ∅

theorem legible_chatFlow (uses : Finset Unit) :
  (chatFlow uses).Legible chatClasses
  := by
  have hnode : ∀ condition, .custom condition ∉ (chatFlow uses).conditionNodes := by
    intro condition hmem
    cases List.mem_singleton.mp hmem
  constructor
  · intro dataPointType _
    exact Classes.plain_of_all "ChatAnswerDataPoint" (by decide) (by decide)
  · intro capability _
    exact Classes.plain_of_all "chat" (by decide) (by decide)
  · intro operator _
    exact Classes.plain_of_all "scorer" (by decide) (by decide)
  · constructor
    · intro dataPointType _
      exact Classes.plain_of_all "ChatAnswerDataPoint" (by decide) (by decide)
    · intro condition hmem
      exact absurd hmem (hnode condition)
    · intro condition hmem
      exact absurd hmem (hnode condition)

theorem toldApart_chatFlow (uses uses' : Finset Unit) :
  (chatFlow uses).ToldApart chatClasses (chatFlow uses')
  := by
  constructor
  · exact fun _ _ _ _ _ => rfl
  · exact fun _ _ _ _ _ => rfl
  · constructor
    · exact fun _ _ _ _ _ => rfl
    · intro condition _ hmem
      cases List.mem_singleton.mp hmem

/-- The operator that uses the answers reruns when one arrives, and the one that does not has
the same fingerprint. -/
theorem uses_not_in_fingerprint :
  (chatFlow {()}).fingerprint chatClasses = (chatFlow ∅).fingerprint chatClasses
    ∧ ¬(chatFlow {()}).SameShape chatClasses (chatFlow ∅)
  := by
  constructor
  · rfl
  · intro hshape
    exact absurd (hshape.retriggers () List.mem_cons_self ⟨{()}, ∅, ∅⟩) (by decide)

/-- The answers' flow is not told from all others, its digest being the text itself; nor is it
with a condition in the place of another of that class. -/
theorem fingerprint_sound_iff_chat :
  Function.Injective (id : String → String) ∧ (chatFlow ∅).Legible chatClasses
    ∧ (chatFlow ∅).ToldApart chatClasses (chatFlow ∅)
    ∧ ((∀ flow' : FlowDefinition Unit Unit Unit, flow'.Legible chatClasses →
          (chatFlow ∅).ToldApart chatClasses flow' →
          (chatFlow ∅).fingerprint chatClasses id = flow'.fingerprint chatClasses id →
          (chatFlow ∅).SameShape chatClasses flow')
        ↔ (chatFlow ∅).operators = [])
    ∧ ∀ answered : Finset Unit → Bool,
      ((chatFlow ∅).completing (.condition (.custom ⟨none, "flows", "Answered", answered⟩))
          ).SameShape chatClasses ((chatFlow ∅).completing
            (.condition (.custom ⟨none, "flows", "Answered", fun _ => true⟩)))
        ↔ answered = fun _ => true
  := by
  have hlegible := legible_chatFlow ∅
  have hapart := toldApart_chatFlow ∅ ∅
  have hsound := @fingerprint_sound_iff Unit Unit Unit _ _ _ chatClasses id Function.injective_id
  use Function.injective_id, hlegible, hapart, hsound.2.2.1 (chatFlow ∅) hlegible hapart
  intro answered
  exact (hsound.2.2.2.2.2 (chatFlow ∅) ⟨none, "flows", "Answered", answered⟩
    ⟨none, "flows", "Answered", fun _ => true⟩ rfl).2

end FlowDefinition

end Orcastork
