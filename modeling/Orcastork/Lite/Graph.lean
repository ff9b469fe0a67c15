import Orcastork.Graph.CircuitCaps
import Orcastork.Graph.Reachability
import Orcastork.Lite.Quiescence

/-!
# The static graph of the lite orchestrator

`orcastork_lite` has no registry of leaves: a class that is produced feeds a class that is needed
if one of the two is a subclass of the other. An instance of the lower one is an instance of both,
so every edge stands for something that may be emitted. The converse takes single inheritance: a
leaf below two classes that are not below one another is an instance of both as well.

Under single inheritance the graph has exactly the edges along which something may flow, and
pruning keeps exactly the operators from which something may flow to a sink (`graph_exact`). Its
sessions launch no others, and leave none of these out (`session_launches`).
-/

namespace Orcastork

/-- No class is a subclass of two that are not subclasses of one another. -/
def Hierarchy.SingleInheritance {α : Type} (hierarchy : Hierarchy α) : Prop :=
  ∀ {a b c}, hierarchy.issubclass a b = true → hierarchy.issubclass a c = true →
    hierarchy.issubclass b c = true ∨ hierarchy.issubclass c b = true

namespace Lite

open Components

section

variable {P C O : Type} (declarations : Declarations P C O)

/-! ### Edges -/

/-- `_overlaps`. -/
def overlaps (produced needed : P) : Bool :=
  declarations.dataPoints.issubclass produced needed
    || declarations.dataPoints.issubclass needed produced

/-- `_feeds`. -/
def feeds (producer : O) (needed : Finset P) : Bool :=
  decide (∃ produced ∈ declarations.produces producer, ∃ need ∈ needed,
    overlaps declarations produced need = true)

/-- A node feeds another, or is required by it. -/
def provides : Node C O → Node C O → Bool
  | .operator producer, consumer => feeds declarations producer (declarations.nodeDependsOn consumer)
  | .capability provider, consumer =>
    decide (∃ required ∈ declarations.nodeRequires consumer,
      declarations.capabilities.issubclass provider required = true)

section

variable [DecidableEq C] [DecidableEq O]

/-- `build_edges`. -/
def buildEdges (operators : List O) (capabilities : List C) :
    Dict (Node C O) (List (Node C O)) :=
  let nodes := Declarations.graphNodes operators capabilities
  nodes.foldl (fun edges node =>
    edges.set node ((nodes.filter (fun consumer => provides declarations node consumer)).dedup))
    .empty

end

/-- An operator may emit, declared, what one of some classes is needed for. -/
def MayFeed (producer : O) (needed : Finset P) : Prop :=
  ∃ leaf, declarations.emissionDeclared producer leaf = true
    ∧ ∃ need ∈ needed, declarations.dataPoints.issubclass leaf need = true

variable {declarations}

/-- What feeds a need may be emitted: the lower of the two classes. -/
theorem mayFeed_of_feeds {producer : O} {needed : Finset P}
    (h : feeds declarations producer needed = true) :
  MayFeed declarations producer needed
  := by
  obtain ⟨produced, hproduced, need, hneed, hoverlaps⟩ := of_decide_eq_true h
  have hrefl := declarations.dataPoints.issubclass_refl
  rw [overlaps, Bool.or_eq_true] at hoverlaps
  rcases hoverlaps with hbelow | habove
  · use produced, decide_eq_true ⟨produced, hproduced, hrefl produced⟩, need, hneed
  · use need, decide_eq_true ⟨produced, hproduced, habove⟩, need, hneed, hrefl need

/-- Under single inheritance nothing else may be. -/
theorem feeds_iff (hsingle : declarations.dataPoints.SingleInheritance) {producer : O}
    {needed : Finset P} :
  feeds declarations producer needed = true ↔ MayFeed declarations producer needed
  := by
  constructor
  · apply mayFeed_of_feeds
  · rintro ⟨leaf, hdeclared, need, hneed, hbelow⟩
    obtain ⟨produced, hproduced, hsub⟩ := of_decide_eq_true hdeclared
    apply decide_eq_true
    use produced, hproduced, need, hneed
    rw [overlaps, Bool.or_eq_true]
    apply hsingle hsub hbelow

theorem mayFeed_mono {producer : O} {needed needed' : Finset P} (hsub : needed ⊆ needed')
    (h : MayFeed declarations producer needed) :
  MayFeed declarations producer needed'
  := by
  obtain ⟨leaf, hdeclared, need, hneed, hbelow⟩ := h
  exact ⟨leaf, hdeclared, need, hsub hneed, hbelow⟩

/-- The edges are those of what a node provides, between the nodes. -/
theorem edge_buildEdges_iff [DecidableEq C] [DecidableEq O] {operators : List O}
    {capabilities : List C} {node successor : Node C O} :
  Edge (buildEdges declarations operators capabilities) node successor
    ↔ node ∈ Declarations.graphNodes operators capabilities
      ∧ successor ∈ Declarations.graphNodes operators capabilities
      ∧ provides declarations node successor = true
  := by
  rw [Edge, successors, buildEdges, Dict.get?_foldl_set]
  split
  · rename_i hmem
    rw [Option.getD_some, List.mem_dedup, List.mem_filter]
    simp only [hmem, true_and]
  · rename_i hmem
    simp [hmem]

end

/-! ### Pruning -/

/-- What an orchestrator is made of. -/
structure Setup (P C O : Type) where
  declarations : Declarations P C O
  /-- What an operator is the sink for. -/
  consumes : O → Finset P
  operators : List O
  capabilities : List C
  policy : O → OperatorPolicy
  debounce : O → Option Monotonic
  retry : O → Option RetryPolicy
  timeout : O → Option Monotonic
  operationTimeout : Monotonic
  sessionDeadline : Option Monotonic
  /-- `_check_unique_ids`. -/
  unique : (operators.map declarations.operatorId).Nodup

namespace Setup

variable {P C O : Type} [DecidableEq P] [DecidableEq C] [DecidableEq O] (setup : Setup P C O)

/-- The operators that declare what they consume. -/
def sinkOperators : List O :=
  setup.operators.filter (fun operator => setup.consumes operator ≠ ∅)

/-- The sinks: what is consumed, and what its consumers depend on. -/
def sinks : Finset P :=
  setup.sinkOperators.toFinset.biUnion (fun operator =>
    setup.consumes operator ∪ setup.declarations.dependsOn operator)

/-- The visit of an operator by `backward_reachable`: kept once it feeds what is needed, and its
inputs needed. -/
def visitProducer (state : Declarations.Backward P O) (operator : O) :
    Option (Declarations.Backward P O) :=
  if operator ∈ state.kept then none
  else if feeds setup.declarations operator state.needed then
    some ⟨state.needed ∪ setup.declarations.dependsOn operator, insert operator state.kept⟩
  else none

/-- The operators that `backward_reachable` keeps, and what is needed then. -/
def keptOperators : Declarations.Backward P O :=
  saturate (fun _ => setup.visitProducer) setup.operators (enoughSweeps setup.operators)
    ⟨setup.sinks, ∅⟩

/-- `backward_reachable`: the operators that produce toward the sinks, and the capabilities they
require. -/
def backwardReachable : Finset O × Finset C :=
  let kept := setup.keptOperators.kept
  (kept, saturate (setup.declarations.visitProvider kept) setup.capabilities
    (enoughSweeps setup.capabilities) ∅)

/-- `_prune_to_consumed_closure`: the operators that are left. -/
def pruned : List O :=
  if setup.sinkOperators.isEmpty then setup.operators
  else
    setup.operators.filter (fun operator =>
      operator ∈ setup.backwardReachable.1 ∨ operator ∈ setup.sinkOperators)

/-- The graph that the rule for cycles is checked on. -/
def edges : Dict (Node C O) (List (Node C O)) :=
  buildEdges setup.declarations setup.pruned setup.capabilities

/-- `cycle_caps`: the order in which a cycle lists its operators does not matter. -/
def caps : Dict OperatorId ℤ :=
  circuitCaps setup.declarations.operatorId (fun operator => (setup.policy operator).maxCycles)
    setup.pruned setup.edges

/-- `_exclude_unpermitted_operators`: the operators that the namespace permits. -/
def permittedOperators (permitted : Option (Finset OperatorId)) : List O :=
  match permitted with
  | none => setup.pruned
  | some ids => setup.pruned.filter (fun operator => setup.declarations.operatorId operator ∈ ids)

variable {setup}

theorem pruned_sublist :
  setup.pruned.Sublist setup.operators
  := by
  rw [pruned]
  split
  · apply List.Sublist.refl
  · apply List.filter_sublist

theorem permittedOperators_sublist (permitted : Option (Finset OperatorId)) :
  (setup.permittedOperators permitted).Sublist setup.pruned
  := by
  cases permitted with
  | none => apply List.Sublist.refl
  | some ids => apply List.filter_sublist

variable (setup)

/-- What a run of the orchestrator works with. -/
def services (permitted : Option (Finset OperatorId)) : Services P C O where
  declarations := setup.declarations
  operators := setup.permittedOperators permitted
  capabilities := setup.capabilities
  policy := setup.policy
  debounce := setup.debounce
  retry := setup.retry
  timeout := setup.timeout
  operationTimeout := setup.operationTimeout
  sessionDeadline := setup.sessionDeadline
  caps := setup.caps
  unique :=
    (((permittedOperators_sublist permitted).trans pruned_sublist).map
      setup.declarations.operatorId).nodup setup.unique

/-- Something may flow from an operator to a sink. -/
inductive FlowsToSink : O → Prop where
  | sink {operator : O} (h : MayFeed setup.declarations operator setup.sinks) : FlowsToSink operator
  | upstream {operator consumer : O} (hconsumer : consumer ∈ setup.operators)
      (h : MayFeed setup.declarations operator (setup.declarations.dependsOn consumer))
      (hflows : FlowsToSink consumer) : FlowsToSink operator

variable {setup}

omit [DecidableEq C] in
theorem visitProducer_eq_some {state state' : Declarations.Backward P O} {operator : O}
    (h : setup.visitProducer state operator = some state') :
  operator ∉ state.kept ∧ feeds setup.declarations operator state.needed = true
    ∧ state'
      = ⟨state.needed ∪ setup.declarations.dependsOn operator, insert operator state.kept⟩
  := by
  rw [visitProducer] at h
  split at h
  · cases h
  · rename_i hnew
    split at h
    · rename_i hfeeds
      obtain rfl := Option.some.inj h
      use hnew, hfeeds
    · cases h

omit [DecidableEq C] in
/-- Something may flow from every operator that is kept, and what is needed is a sink or an input of
one that is. -/
theorem flowsToSink_of_kept :
  (∀ operator ∈ setup.keptOperators.kept, operator ∈ setup.operators ∧ setup.FlowsToSink operator)
    ∧ ∀ need ∈ setup.keptOperators.needed, need ∈ setup.sinks
      ∨ ∃ consumer ∈ setup.keptOperators.kept, need ∈ setup.declarations.dependsOn consumer
  := by
  apply saturate_invariant (fun state : Declarations.Backward P O =>
    (∀ operator ∈ state.kept, operator ∈ setup.operators ∧ setup.FlowsToSink operator)
      ∧ ∀ need ∈ state.needed, need ∈ setup.sinks
        ∨ ∃ consumer ∈ state.kept, need ∈ setup.declarations.dependsOn consumer)
  · rintro start state operator state' - ⟨hkept, hneeded⟩ hmem hvisit
    obtain ⟨-, hfeeds, rfl⟩ := visitProducer_eq_some hvisit
    have hflows : setup.FlowsToSink operator := by
      obtain ⟨leaf, hdeclared, need, hneed, hbelow⟩ := mayFeed_of_feeds hfeeds
      rcases hneeded need hneed with hsink | ⟨consumer, hconsumer, hinput⟩
      · exact .sink ⟨leaf, hdeclared, need, hsink, hbelow⟩
      · obtain ⟨hgiven, hconsumer⟩ := hkept consumer hconsumer
        exact .upstream hgiven ⟨leaf, hdeclared, need, hinput, hbelow⟩ hconsumer
    constructor
    · intro other hother
      rcases Finset.mem_insert.mp hother with rfl | hother
      · exact ⟨hmem, hflows⟩
      · apply hkept other hother
    · intro need hneed
      rcases Finset.mem_union.mp hneed with hneed | hinput
      · apply (hneeded need hneed).imp_right
        rintro ⟨consumer, hconsumer, hinput⟩
        use consumer, Finset.mem_insert_of_mem hconsumer
      · right
        use operator, Finset.mem_insert_self _ _
  · constructor
    · intro operator hmem
      cases hmem
    · intro need hneed
      left
      apply hneed

omit [DecidableEq C] in
/-- The sinks and the inputs of the operators that are kept are needed. -/
theorem needed_keptOperators :
  setup.sinks ⊆ setup.keptOperators.needed
    ∧ ∀ operator ∈ setup.keptOperators.kept,
      setup.declarations.dependsOn operator ⊆ setup.keptOperators.needed
  := by
  apply saturate_invariant (fun state : Declarations.Backward P O =>
    setup.sinks ⊆ state.needed
      ∧ ∀ operator ∈ state.kept, setup.declarations.dependsOn operator ⊆ state.needed)
  · rintro start state operator state' - ⟨hsinks, hinputs⟩ - hvisit
    obtain ⟨-, -, rfl⟩ := visitProducer_eq_some hvisit
    constructor
    · apply hsinks.trans Finset.subset_union_left
    · intro other hother
      rcases Finset.mem_insert.mp hother with rfl | hother
      · apply Finset.subset_union_right
      · apply (hinputs other hother).trans Finset.subset_union_left
  · constructor
    · apply Finset.Subset.refl
    · intro operator hmem
      cases hmem

omit [DecidableEq C] in
/-- An operator that feeds what is needed is kept. -/
theorem mem_kept_of_feeds {operator : O} (hmem : operator ∈ setup.operators)
    (hfeeds : feeds setup.declarations operator setup.keptOperators.needed = true) :
  operator ∈ setup.keptOperators.kept
  := by
  have hcollecting : Collecting (fun _ => setup.visitProducer) (id : O → O)
      Declarations.Backward.kept := by
    intro start state operator state' hvisit
    obtain ⟨hnew, -, rfl⟩ := visitProducer_eq_some hvisit
    use hnew
    rfl
  have hnone := hcollecting.saturated setup.operators (s := ⟨setup.sinks, ∅⟩) rfl operator hmem
  change setup.visitProducer setup.keptOperators operator = none at hnone
  by_contra hnew
  rw [visitProducer, if_neg hnew, if_pos hfeeds] at hnone
  cases hnone

omit [DecidableEq C] in
/-- Under single inheritance the operators that are kept are those from which something may flow to
a sink. -/
theorem mem_kept_iff (hsingle : setup.declarations.dataPoints.SingleInheritance) {operator : O}
    (hmem : operator ∈ setup.operators) :
  operator ∈ setup.keptOperators.kept ↔ setup.FlowsToSink operator
  := by
  have hneeded : setup.sinks ⊆ setup.keptOperators.needed
      ∧ ∀ operator ∈ setup.keptOperators.kept,
        setup.declarations.dependsOn operator ⊆ setup.keptOperators.needed := needed_keptOperators
  obtain ⟨hsinks, hinputs⟩ := hneeded
  constructor
  · intro hkept
    apply (flowsToSink_of_kept.1 operator hkept).2
  · intro hflows
    induction hflows with
    | sink h =>
        apply mem_kept_of_feeds hmem
        rw [feeds_iff hsingle]
        apply mayFeed_mono hsinks h
    | upstream hconsumer h _ ih =>
        apply mem_kept_of_feeds hmem
        rw [feeds_iff hsingle]
        apply mayFeed_mono (hinputs _ (ih hconsumer)) h

/-- The operators that are left by pruning. -/
theorem mem_pruned_iff (hsingle : setup.declarations.dataPoints.SingleInheritance) {operator : O} :
  operator ∈ setup.pruned
    ↔ operator ∈ setup.operators
      ∧ (setup.sinkOperators = [] ∨ operator ∈ setup.sinkOperators ∨ setup.FlowsToSink operator)
  := by
  rw [pruned]
  split
  · rename_i hempty
    rw [List.isEmpty_iff] at hempty
    simp [hempty]
  · rename_i hsinks
    rw [List.isEmpty_iff] at hsinks
    rw [List.mem_filter, decide_eq_true_eq, or_iff_right hsinks]
    apply and_congr_right
    intro hmem
    rw [backwardReachable, mem_kept_iff hsingle hmem]
    apply or_comm

/-- Under single inheritance pruning leaves the operators from which something may flow to a sink,
and among those the graph has an edge for everything that may flow, and no other. -/
theorem graph_exact (setup : Setup P C O)
    (hsingle : setup.declarations.dataPoints.SingleInheritance) :
  (∀ operator, operator ∈ setup.pruned
    ↔ operator ∈ setup.operators
      ∧ (setup.sinkOperators = [] ∨ operator ∈ setup.sinkOperators ∨ setup.FlowsToSink operator))
    ∧ ∀ producer consumer, Edge setup.edges (.operator producer) consumer
      ↔ producer ∈ setup.pruned
        ∧ consumer ∈ Declarations.graphNodes setup.pruned setup.capabilities
        ∧ ∃ leaf, setup.declarations.emissionDeclared producer leaf = true
          ∧ ∃ need ∈ setup.declarations.nodeDependsOn consumer,
            setup.declarations.dataPoints.issubclass leaf need = true
  := by
  constructor
  · intro operator
    apply mem_pruned_iff hsingle
  · intro producer consumer
    have hproducer : Node.operator producer
        ∈ Declarations.graphNodes setup.pruned setup.capabilities ↔ producer ∈ setup.pruned := by
      simp [Declarations.graphNodes]
    rw [edges, edge_buildEdges_iff, provides, feeds_iff hsingle, hproducer]
    rfl

/-! ### What runs -/

variable (setup)

/-- An operator takes part in the sessions of a namespace: it is registered and permitted, and
unless nothing is consumed it consumes, or something may flow from it to a sink. -/
def TakesPart (permitted : Option (Finset OperatorId)) (operator : O) : Prop :=
  operator ∈ setup.operators
    ∧ (setup.sinkOperators = [] ∨ operator ∈ setup.sinkOperators ∨ setup.FlowsToSink operator)
    ∧ ∀ ids, permitted = some ids → setup.declarations.operatorId operator ∈ ids

variable {setup}

/-- Those who take part are the operators that a session works with. -/
theorem mem_permittedOperators_iff (hsingle : setup.declarations.dataPoints.SingleInheritance)
    {permitted : Option (Finset OperatorId)} {operator : O} :
  operator ∈ setup.permittedOperators permitted ↔ setup.TakesPart permitted operator
  := by
  rw [TakesPart, ← and_assoc, ← mem_pruned_iff hsingle]
  cases permitted with
  | none => simp [permittedOperators]
  | some ids => simp [permittedOperators]

/-- A session launches only operators that take part; and one that ended by itself has launched
every operator that takes part, that its last pass found ready, and that its cap still lets run. -/
theorem session_launches {V : Type} [DecidableEq V] (setup : Setup P C O)
    (hsingle : setup.declarations.dataPoints.SingleInheritance)
    (permitted : Option (Finset OperatorId)) (seed : List (DataPoint P V)) (now : Monotonic)
    (actions : List (Action P V)) {watched : Watched P V}
    (hrun : TransitionSystem.run (Watched.step (setup.services permitted))
      (Watched.initial (setup.services permitted) seed now) actions = some watched) :
  (∀ operatorId, (watched.seen operatorId).isSome →
      ∃ operator, setup.TakesPart permitted operator
        ∧ setup.declarations.operatorId operator = operatorId)
    ∧ (watched.gather.phase = .ended → watched.gather.deadlineHit = false →
      ∀ operator, setup.TakesPart permitted operator →
        (setup.services permitted).isReady operator
            (watched.gather.state.view.map DataPoint.type).toFinset
            (Declarations.typesOf (setup.declarations.registered setup.capabilities)
              watched.available) = true →
          watched.gather.breaker.isTripped (setup.declarations.operatorId operator) = false →
            (watched.seen (setup.declarations.operatorId operator)).isSome)
  := by
  have hcaught := Watched.caught_run hrun
  constructor
  · intro operatorId hseen
    obtain ⟨operator, hmem, hid⟩ := List.mem_map.mp (Watched.known_of_seen hrun hseen)
    use operator, (mem_permittedOperators_iff hsingle).mp hmem, hid
  · intro hended hquiet operator htakes hready htripped
    obtain ⟨-, hidle, hrest⟩ := hcaught.rest (Or.inr (Or.inr hended)) hquiet
    have hmem := (mem_permittedOperators_iff hsingle).mpr htakes
    obtain ⟨hhasRun, -⟩ := hrest operator hmem 0 hready htripped
    have hwatermark := hcaught.traced.settled hquiet (hidle.1 _)
      (hidle.2 ((setup.services permitted).operatorId operator))
    rw [SessionState.hasRun, hwatermark, Option.isSome_map] at hhasRun
    apply hhasRun

end Setup

/-! ### A leaf below a leaf -/

/-- A collector of emails, a reader of work emails that consumes what it reads, and a reader of
nothing. -/
def emailSetup : Setup String String String where
  declarations := emailDeclarations
  consumes operator := if operator = "work_reader" then {"work_email"} else ∅
  operators := ["collector", "work_reader", "idler"]
  capabilities := []
  policy _ := ⟨false, .addedOnly, none⟩
  debounce _ := none
  retry _ := none
  timeout _ := none
  operationTimeout := 30
  sessionDeadline := none
  unique := by decide

theorem singleInheritance_email :
  emailSetup.declarations.dataPoints.SingleInheritance
  := by
  intro a b c hab hac
  have hab := of_decide_eq_true hab
  have hac := of_decide_eq_true hac
  rcases hab with rfl | ⟨rfl, rfl⟩
  · left
    apply decide_eq_true hac
  · rcases hac with rfl | ⟨-, rfl⟩
    · right
      rfl
    · left
      rfl

/-- The idler produces nothing. -/
theorem not_flowsToSink_idler :
  ¬emailSetup.FlowsToSink "idler"
  := by
  intro hflows
  cases hflows with
  | sink h =>
      obtain ⟨leaf, hdeclared, -⟩ := h
      obtain ⟨declared, hmem, -⟩ := of_decide_eq_true hdeclared
      cases hmem
  | upstream _ h _ =>
      obtain ⟨leaf, hdeclared, -⟩ := h
      obtain ⟨declared, hmem, -⟩ := of_decide_eq_true hdeclared
      cases hmem

/-- The idler is not left by pruning. -/
theorem not_kept_idler :
  ¬(emailSetup.sinkOperators = [] ∨ "idler" ∈ emailSetup.sinkOperators
    ∨ emailSetup.FlowsToSink "idler")
  := by
  rintro (hsinks | hsink | hflows)
  · revert hsinks
    decide
  · revert hsink
    decide
  · apply not_flowsToSink_idler hflows

/-- The collector may emit a work email: it is kept and has the edge that `build_graph` does not
draw; what the idler emits nothing needs. -/
theorem graph_exact_email :
  "collector" ∈ emailSetup.pruned ∧ "idler" ∉ emailSetup.pruned
    ∧ Edge emailSetup.edges (.operator "collector") (.operator "work_reader")
  := by
  obtain ⟨hpruned, hedge⟩ := Setup.graph_exact emailSetup singleInheritance_email
  have hfeeds : MayFeed emailSetup.declarations "collector" {"work_email"} :=
    ⟨"work_email", by decide, "work_email", by decide, by decide⟩
  have hcollector : "collector" ∈ emailSetup.pruned := by
    rw [hpruned]
    refine ⟨by decide, Or.inr (Or.inr (.sink ?_))⟩
    apply mayFeed_mono _ hfeeds
    decide
  have hreader : "work_reader" ∈ emailSetup.pruned := by
    rw [hpruned]
    exact ⟨by decide, Or.inr (Or.inl (by decide))⟩
  refine ⟨hcollector, ?_, ?_⟩
  · rw [hpruned]
    rintro ⟨-, hkept⟩
    apply not_kept_idler hkept
  · rw [hedge]
    refine ⟨hcollector, ?_, hfeeds⟩
    simp only [Declarations.graphNodes, List.mem_append, List.mem_map]
    left
    use "work_reader"

/-- All three operators are permitted. -/
def emailServices : Services String String String :=
  emailSetup.services (some {"collector", "work_reader", "idler"})

/-- The collector finds a work email, and it is read. -/
def emailRuns : List (Action String String) :=
  [.pass 0 ∅ (fun _ => 0), .emit "collector" ⟨"work_email", "a", "collector", 1, 1⟩,
    .finish "collector" none, .signalled (fun _ => 1), .pass 1 ∅ (fun _ => 1),
    .finish "work_reader" none, .signalled (fun _ => 2), .pass 2 ∅ (fun _ => 2),
    .drain (fun _ => 2), .close (fun _ => 2)]

/-- The reader was launched, and the idler was not, though it was ready all the time. -/
theorem session_launches_email :
  ∃ watched, TransitionSystem.run (Watched.step emailServices)
        (Watched.initial emailServices [] 0) emailRuns = some watched
      ∧ (watched.seen "work_reader").isSome ∧ watched.seen "idler" = none
  := by
  have hruns : (TransitionSystem.run (Watched.step emailServices)
      (Watched.initial emailServices [] 0) emailRuns).map (fun watched =>
        (watched.gather.phase, watched.gather.deadlineHit,
          watched.gather.breaker.isTripped "work_reader",
          emailServices.isReady "work_reader"
            (watched.gather.state.view.map DataPoint.type).toFinset
            (Declarations.typesOf (emailSetup.declarations.registered emailSetup.capabilities)
              watched.available)))
      = some (.ended, false, false, true) := by
    rfl
  obtain ⟨watched, hrun, hwatched⟩ := Option.map_eq_some_iff.mp hruns
  simp only [Prod.mk.injEq] at hwatched
  obtain ⟨hended, hquiet, htripped, hready⟩ := hwatched
  obtain ⟨honly, hall⟩ := Setup.session_launches emailSetup singleInheritance_email
    (some {"collector", "work_reader", "idler"}) [] 0 emailRuns hrun
  refine ⟨watched, hrun, ?_, ?_⟩
  · have hreader : emailSetup.TakesPart (some {"collector", "work_reader", "idler"})
        "work_reader" := by
      refine ⟨by decide, Or.inr (Or.inl (by decide)), ?_⟩
      intro ids hids
      obtain rfl := Option.some.inj hids
      decide
    apply hall hended hquiet "work_reader" hreader hready htripped
  · by_contra hseen
    obtain ⟨operator, htakes, rfl⟩ := honly "idler" (Option.isSome_iff_ne_none.mpr hseen)
    apply not_kept_idler htakes.2.1

end Lite

end Orcastork
