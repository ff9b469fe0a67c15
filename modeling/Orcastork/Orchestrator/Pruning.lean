import Orcastork.Graph.Reachability
import Orcastork.Scheduling.Readiness

/-!
# Pruning

An aggregator that declares what it consumes makes the orchestrator drop the operators whose
output nothing needs. What is kept should behave as before: the same operators and aggregators
become ready, their capabilities available, their inputs present and the session complete.

The forward closure of a gather set says what can become of it: a ready operator produces its
`effective_produces`, and the capabilities are those `compute_available` gives. The backward
pass follows `depends_on` from operators only, so a dropped operator can be the one that feeds
a `uses` input or an input of a capability. Pruning preserves the behaviour of what it keeps
exactly when that does not happen (`pruning_preserves_iff`).
-/

namespace Orcastork

namespace Declarations

variable {P C O : Type} [DecidableEq P] [DecidableEq C] [DecidableEq O]
variable (declarations : Declarations P C O)

/-! ### The gather set -/

/-- The sinks of a session, if it can be pruned: what its aggregators consume and depend on, and
what its completion keys on. Nothing if no aggregator declares what it consumes, or the
completion condition cannot be looked into. -/
def sinks (operators : List O) (completesWhen : Option (CompletionCondition P)) :
    Option (Finset P) :=
  let aggregators := declarations.aggregators operators
  let declared := aggregators.toFinset.biUnion (fun aggregator =>
    ((declarations.aggregator aggregator).map AggregatorDeclaration.consumes).getD ∅)
  if declared = ∅ then
    none
  else
    match completesWhen.elim (some ∅) CompletionCondition.referencedTypes with
    | none => none
    | some completionTypes =>
      let gateInputs := aggregators.toFinset.biUnion declarations.dependsOn
      some (declared ∪ gateInputs ∪ completionTypes)

/-- `_prune_to_consumed_closure`: the gather set without the operators whose output nothing
needs. -/
def prunedGathering (operators : List O) (capabilities : List C)
    (completesWhen : Option (CompletionCondition P)) : List O :=
  match declarations.sinks operators completesWhen with
  | none => declarations.gathering operators
  | some sinks =>
    let runnable := (declarations.gathering operators).filter (fun operator =>
      !declarations.isAggregator operator)
    let kept := (declarations.backwardReachable runnable capabilities sinks).1
    (declarations.gathering operators).filter (fun operator =>
      declarations.isAggregator operator || operator ∈ kept)

/-! ### The forward closure -/

/-- The classes present so far, and the operators that ran. -/
structure Forward (P O : Type) where
  present : Finset P
  ran : Finset O

/-- The visit of an operator: once it is ready it runs and produces. -/
def visitReady (registered : Dict CapabilityId C) (permitted : Finset CapabilityId)
    (state : Forward P O) (operator : O) : Option (Forward P O) :=
  if operator ∈ state.ran then
    none
  else if declarations.isReady operator state.present
      (declarations.availableTypes registered permitted state.present) then
    some ⟨state.present ∪ declarations.effectiveProduces operator, insert operator state.ran⟩
  else
    none

/-- What can become of a gather set, from the classes present initially. -/
def forwardClosure (gathering : List O) (registered : Dict CapabilityId C)
    (permitted : Finset CapabilityId) (initial : Finset P) : Forward P O :=
  saturate (fun _ => declarations.visitReady registered permitted) gathering
    (enoughSweeps gathering) ⟨initial, ∅⟩

variable {declarations}
variable {gathering : List O} {registered : Dict CapabilityId C}
variable {permitted : Finset CapabilityId} {initial : Finset P}

theorem visitReady_eq_some {state state' : Forward P O} {operator : O}
    (h : declarations.visitReady registered permitted state operator = some state') :
  operator ∉ state.ran
    ∧ declarations.isReady operator state.present
        (declarations.availableTypes registered permitted state.present) = true
    ∧ state'
      = ⟨state.present ∪ declarations.effectiveProduces operator, insert operator state.ran⟩
  := by
  rw [visitReady] at h
  split at h
  · cases h
  · rename_i hnew
    split at h
    · rename_i hready
      cases h
      use hnew, hready
    · cases h

/-- An operator that is ready in the end ran. -/
theorem mem_ran_of_isReady {operator : O} (hmem : operator ∈ gathering)
    (hready : declarations.isReady operator
      (declarations.forwardClosure gathering registered permitted initial).present
      (declarations.availableTypes registered permitted
        (declarations.forwardClosure gathering registered permitted initial).present) = true) :
  operator ∈ (declarations.forwardClosure gathering registered permitted initial).ran
  := by
  have hcollecting : Collecting (fun _ => declarations.visitReady registered permitted)
      (id : O → O) Forward.ran := by
    intro start state operator state' hvisit
    obtain ⟨hnew, -, rfl⟩ := visitReady_eq_some hvisit
    use hnew
    rfl
  have hnone := hcollecting.saturated gathering (s := ⟨initial, ∅⟩) rfl operator hmem
  change declarations.visitReady registered permitted
    (declarations.forwardClosure gathering registered permitted initial) operator = none at hnone
  by_contra hnew
  rw [visitReady, if_neg hnew, if_pos hready] at hnone
  cases hnone

/-- What holds at the start, and is preserved when a ready operator runs, holds in the end. -/
theorem forwardClosure_invariant (inv : Forward P O → Prop) (hstart : inv ⟨initial, ∅⟩)
    (hstep : ∀ state operator, inv state → operator ∈ gathering →
      declarations.isReady operator state.present
        (declarations.availableTypes registered permitted state.present) = true →
      inv ⟨state.present ∪ declarations.effectiveProduces operator,
        insert operator state.ran⟩) :
  inv (declarations.forwardClosure gathering registered permitted initial)
  := by
  apply saturate_invariant inv _ _ hstart
  rintro start state operator state' - hstate hmem hvisit
  obtain ⟨-, hready, rfl⟩ := visitReady_eq_some hvisit
  apply hstep state operator hstate hmem hready

/-- The classes present initially stay, and what ran has produced. -/
theorem subset_present :
  initial ⊆ (declarations.forwardClosure gathering registered permitted initial).present
    ∧ ∀ operator ∈ (declarations.forwardClosure gathering registered permitted initial).ran,
        declarations.effectiveProduces operator
          ⊆ (declarations.forwardClosure gathering registered permitted initial).present
  := by
  apply forwardClosure_invariant (fun state : Forward P O => initial ⊆ state.present
    ∧ ∀ operator ∈ state.ran, declarations.effectiveProduces operator ⊆ state.present)
  · constructor
    · apply Finset.Subset.refl
    · nofun
  · rintro state operator ⟨hinitial, hproduced⟩ - -
    constructor
    · apply hinitial.trans Finset.subset_union_left
    · intro operator' hran
      obtain rfl | hran := Finset.mem_insert.mp hran
      · apply Finset.subset_union_right
      · apply (hproduced operator' hran).trans Finset.subset_union_left

/-- A step that a larger gather set takes too stays below its closure. -/
theorem step_subset_forwardClosure {state : Forward P O} {operator : O}
    (hpresent : state.present
      ⊆ (declarations.forwardClosure gathering registered permitted initial).present)
    (hran : state.ran ⊆ (declarations.forwardClosure gathering registered permitted initial).ran)
    (hmem : operator ∈ gathering)
    (hready : declarations.isReady operator state.present
      (declarations.availableTypes registered permitted state.present) = true) :
  state.present ∪ declarations.effectiveProduces operator
      ⊆ (declarations.forwardClosure gathering registered permitted initial).present
    ∧ insert operator state.ran
      ⊆ (declarations.forwardClosure gathering registered permitted initial).ran
  := by
  have hmem' : operator
      ∈ (declarations.forwardClosure gathering registered permitted initial).ran := by
    apply mem_ran_of_isReady hmem
    apply isReady_mono hpresent (availableTypes_mono hpresent) hready
  constructor
  · apply Finset.union_subset hpresent
    apply subset_present.2 operator hmem'
  · apply Finset.insert_subset hmem' hran

/-- What ran is of the gather set. -/
theorem mem_gathering_of_mem_ran {operator : O}
    (h : operator ∈ (declarations.forwardClosure gathering registered permitted initial).ran) :
  operator ∈ gathering
  := by
  have hall : ∀ operator ∈
      (declarations.forwardClosure gathering registered permitted initial).ran,
      operator ∈ gathering := by
    apply forwardClosure_invariant (fun state : Forward P O =>
      ∀ operator ∈ state.ran, operator ∈ gathering)
    · nofun
    · intro state operator hstate hmem _ operator' hran
      obtain rfl | hran := Finset.mem_insert.mp hran
      · apply hmem
      · apply hstate operator' hran
  apply hall operator h

/-- A larger gather set has the larger closure. -/
theorem forwardClosure_mono {gathering' : List O} (hsub : gathering ⊆ gathering') :
  (declarations.forwardClosure gathering registered permitted initial).present
      ⊆ (declarations.forwardClosure gathering' registered permitted initial).present
    ∧ (declarations.forwardClosure gathering registered permitted initial).ran
      ⊆ (declarations.forwardClosure gathering' registered permitted initial).ran
  := by
  apply forwardClosure_invariant (fun state : Forward P O =>
    state.present
        ⊆ (declarations.forwardClosure gathering' registered permitted initial).present
      ∧ state.ran ⊆ (declarations.forwardClosure gathering' registered permitted initial).ran)
  · constructor
    · apply subset_present.1
    · apply Finset.empty_subset
  · rintro state operator ⟨hpresent, hran⟩ hmem hready
    apply step_subset_forwardClosure hpresent hran (hsub hmem) hready

end Declarations

/-! ### What pruning preserves -/

/-- A session: its declarations, operators, capabilities and completion condition, what its
namespace permits, and the classes present initially. -/
structure Session (P C O : Type) where
  declarations : Declarations P C O
  operators : List O
  capabilities : List C
  completesWhen : Option (CompletionCondition P)
  permitted : Finset CapabilityId
  initial : Finset P

namespace Session

variable {P C O : Type} [DecidableEq P] [DecidableEq C] [DecidableEq O]
variable (session : Session P C O)

/-- The gather set before pruning. -/
def gathering : List O := session.declarations.gathering session.operators

/-- The gather set after pruning. -/
def pruned : List O :=
  session.declarations.prunedGathering session.operators session.capabilities
    session.completesWhen

/-- The operators that are kept, and the aggregators. -/
def kept : List O :=
  session.pruned ++ session.declarations.aggregators session.operators

/-- The registered capabilities. -/
def registered : Dict CapabilityId C :=
  session.declarations.registered session.capabilities

/-- What becomes of a gather set. -/
def closure (gathering : List O) : Declarations.Forward P O :=
  session.declarations.forwardClosure gathering session.registered session.permitted
    session.initial

/-- The ids of the capabilities available in the closure of a gather set. -/
def available (gathering : List O) : Finset CapabilityId :=
  session.declarations.computeAvailable session.registered session.permitted
    (session.closure gathering).present

/-- An operator is ready in the closure of a gather set. -/
def ready (gathering : List O) (operator : O) : Bool :=
  session.declarations.isReady operator (session.closure gathering).present
    (session.declarations.availableTypes session.registered session.permitted
      (session.closure gathering).present)

/-- A class is produced, or was present, in the closure of a gather set. -/
def producible (gathering : List O) (required : P) : Bool :=
  session.declarations.satisfies (session.closure gathering).present required

/-- The capabilities that some operators require, and those these build on. -/
inductive Required (operators : List O) : CapabilityId → C → Prop where
  | ofOperator {operator : O} {required : C} {capabilityId : CapabilityId} {capability : C} :
    operator ∈ operators → required ∈ session.declarations.requires operator →
    session.registered.get? capabilityId = some capability →
    session.declarations.capabilities.issubclass capability required = true →
    Required operators capabilityId capability
  | ofCapability {requirerId : CapabilityId} {requirer required : C}
      {capabilityId : CapabilityId} {capability : C} :
    Required operators requirerId requirer →
    required ∈ session.declarations.capabilityRequires requirer →
    session.registered.get? capabilityId = some capability →
    session.declarations.capabilities.issubclass capability required = true →
    Required operators capabilityId capability

/-- Pruning preserves the behaviour of what it keeps: which operators and aggregators become
ready, which of their capabilities available, whether the completion condition is satisfied,
and which declared inputs are produced. -/
structure PruningPreserves : Prop where
  ready : ∀ operator ∈ session.kept,
    session.ready session.gathering operator = session.ready session.pruned operator
  available : ∀ capabilityId capability, session.Required session.kept capabilityId capability →
    (capabilityId ∈ session.available session.gathering
      ↔ capabilityId ∈ session.available session.pruned)
  completion : ∀ condition ∈ session.completesWhen,
    condition.isSatisfied session.declarations (session.closure session.gathering).present
      = condition.isSatisfied session.declarations (session.closure session.pruned).present
  inputs : ∀ operator ∈ session.kept,
    ∀ required ∈ session.declarations.dependsOn operator ∪ session.declarations.uses operator,
      session.producible session.gathering required = session.producible session.pruned required

/-- An operator outside of `operators` would run and produce the class, and none of `operators`
does. -/
def Starved (operators : List O) (required : P) : Prop :=
  (∃ operator ∈ (session.closure session.gathering).ran, operator ∉ operators
      ∧ session.declarations.satisfies (session.declarations.effectiveProduces operator) required
        = true)
    ∧ session.producible operators required = false

/-- An operator feeds the sinks: it produces a sink, or an input (`depends_on`) of an operator
that feeds them. Aggregators are sinks themselves, and without sinks everything counts. -/
inductive Feeds : O → Prop where
  | unpruned {operator : O} :
    session.declarations.sinks session.operators session.completesWhen = none → Feeds operator
  | aggregator {operator : O} : session.declarations.isAggregator operator = true → Feeds operator
  | sink {operator : O} {sinks : Finset P} {need : P} :
    session.declarations.sinks session.operators session.completesWhen = some sinks →
    need ∈ sinks →
    session.declarations.satisfies (session.declarations.effectiveProduces operator) need = true →
    Feeds operator
  | input {operator consumer : O} {need : P} :
    consumer ∈ session.gathering → Feeds consumer →
    need ∈ session.declarations.dependsOn consumer →
    session.declarations.satisfies (session.declarations.effectiveProduces operator) need = true →
    Feeds operator

open Classical in
/-- The operators of the gather set that feed the sinks. -/
noncomputable def feeding : List O := session.gathering.filter (fun operator =>
  decide (session.Feeds operator))

/-- No input is starved that the backward pass does not follow: neither a `uses` input of an
operator that feeds the sinks or of an aggregator, nor an input of an available capability that
they require. -/
structure NoneStarved (operators : List O) : Prop where
  uses : ∀ operator ∈ operators ++ session.declarations.aggregators session.operators,
    ∀ required ∈ session.declarations.uses operator, ¬session.Starved operators required
  capabilities : ∀ capabilityId capability,
    session.Required (operators ++ session.declarations.aggregators session.operators)
      capabilityId capability →
    capabilityId ∈ session.available session.gathering →
    ∀ required ∈ session.declarations.capabilityDependsOn capability,
      ¬session.Starved operators required

variable {session}

/-- Every operator of the gather set that could feed the class is kept. -/
def Followed (session : Session P C O) (required : P) : Prop :=
  ∀ operator ∈ session.gathering,
    session.declarations.satisfies (session.declarations.effectiveProduces operator) required
      = true →
    operator ∈ session.pruned

/-! ### What the backward pass follows -/

/-- Without sinks nothing is pruned. -/
theorem pruned_of_sinks_none
    (h : session.declarations.sinks session.operators session.completesWhen = none) :
  session.pruned = session.gathering
  := by
  rw [pruned, Declarations.prunedGathering, h]
  rfl

theorem pruned_subset :
  session.pruned ⊆ session.gathering
  := by
  rw [pruned, Declarations.prunedGathering]
  split
  · apply List.Subset.refl
  · apply List.filter_subset_self

/-- With sinks an operator that could feed a needed class is kept. -/
theorem followed_of_needed {sinks : Finset P}
    (h : session.declarations.sinks session.operators session.completesWhen = some sinks)
    {required : P}
    (hneed : required ∈ (session.declarations.keptOperators (session.gathering.filter
      (fun operator => !session.declarations.isAggregator operator)) sinks).needed) :
  session.Followed required
  := by
  intro operator hmem hproduces
  rw [pruned, Declarations.prunedGathering, h]
  apply List.mem_filter.mpr
  constructor
  · apply hmem
  · rw [Bool.or_eq_true, decide_eq_true_eq]
    cases haggregator : session.declarations.isAggregator operator with
    | true =>
        left
        rfl
    | false =>
        right
        apply Declarations.mem_keptOperators _ hneed hproduces
        apply List.mem_filter.mpr
        use hmem
        rw [haggregator]
        rfl

omit [DecidableEq C] in
/-- The inputs of the aggregators and the classes the completion keys on are sinks. -/
theorem mem_sinks {sinks : Finset P}
    (h : session.declarations.sinks session.operators session.completesWhen = some sinks) :
  (∀ operator ∈ session.declarations.aggregators session.operators,
      session.declarations.dependsOn operator ⊆ sinks)
    ∧ ∀ condition ∈ session.completesWhen, ∃ types, condition.referencedTypes = some types
        ∧ types ⊆ sinks
  := by
  rw [Declarations.sinks] at h
  simp only at h
  split at h
  · cases h
  · split at h
    · cases h
    · rename_i completionTypes htypes
      obtain rfl := Option.some.inj h
      constructor
      · intro operator hmem
        apply Finset.Subset.trans _ Finset.subset_union_left
        apply Finset.Subset.trans _ Finset.subset_union_right
        apply Finset.subset_biUnion_of_mem
        rw [List.mem_toFinset]
        apply hmem
      · intro condition hcondition
        rw [Option.mem_def] at hcondition
        rw [hcondition, Option.elim_some] at htypes
        use completionTypes, htypes
        apply Finset.subset_union_right

/-- The inputs of what is kept are followed. -/
theorem followed_dependsOn {operator : O} (hmem : operator ∈ session.kept) {required : P}
    (hrequired : required ∈ session.declarations.dependsOn operator) :
  session.Followed required
  := by
  cases h : session.declarations.sinks session.operators session.completesWhen with
  | none =>
      intro producer hproducer _
      rw [pruned_of_sinks_none h]
      apply hproducer
  | some sinks =>
      apply followed_of_needed h
      have hneeded := session.declarations.needed_keptOperators (session.gathering.filter
        (fun operator => !session.declarations.isAggregator operator)) sinks
      have haggregator : operator ∈ session.declarations.aggregators session.operators →
          required ∈ (session.declarations.keptOperators (session.gathering.filter
            (fun operator => !session.declarations.isAggregator operator)) sinks).needed := by
        intro hagg
        apply hneeded.1
        apply (mem_sinks h).1 operator hagg hrequired
      obtain hpruned | hagg := List.mem_append.mp hmem
      · rw [pruned, Declarations.prunedGathering, h] at hpruned
        obtain ⟨hgathering, hkept⟩ := List.mem_filter.mp hpruned
        rw [Bool.or_eq_true, decide_eq_true_eq] at hkept
        obtain hagg | hkept := hkept
        · apply haggregator
          apply List.mem_filter.mpr
          use (List.mem_filter.mp hgathering).1
        · apply hneeded.2 operator hkept hrequired
      · apply haggregator hagg

/-- Unless nothing is pruned, the completion keys on classes that are followed. -/
theorem followed_completion {condition : CompletionCondition P}
    (hcondition : condition ∈ session.completesWhen) :
  session.pruned = session.gathering
    ∨ ∃ types, condition.referencedTypes = some types
        ∧ ∀ required ∈ types, session.Followed required
  := by
  cases h : session.declarations.sinks session.operators session.completesWhen with
  | none =>
      left
      apply pruned_of_sinks_none h
  | some sinks =>
      right
      obtain ⟨types, htypes, hsub⟩ := (mem_sinks h).2 condition hcondition
      use types, htypes
      intro required hrequired
      apply followed_of_needed h
      apply (Declarations.needed_keptOperators _ _ _).1
      apply hsub hrequired

omit [DecidableEq C] in
/-- The backward pass keeps only operators that feed the sinks. -/
theorem feeds_of_mem_keptOperators {sinks : Finset P}
    (h : session.declarations.sinks session.operators session.completesWhen = some sinks)
    {operator : O}
    (hmem : operator ∈ (session.declarations.keptOperators (session.gathering.filter
      (fun operator => !session.declarations.isAggregator operator)) sinks).kept) :
  session.Feeds operator
  := by
  have hall : (∀ operator ∈ (session.declarations.keptOperators (session.gathering.filter
        (fun operator => !session.declarations.isAggregator operator)) sinks).kept,
        operator ∈ session.gathering ∧ session.Feeds operator)
      ∧ ∀ need ∈ (session.declarations.keptOperators (session.gathering.filter
        (fun operator => !session.declarations.isAggregator operator)) sinks).needed,
        need ∈ sinks ∨ ∃ consumer ∈ session.gathering, session.Feeds consumer
          ∧ need ∈ session.declarations.dependsOn consumer := by
    apply saturate_invariant (fun state : Declarations.Backward P O =>
      (∀ operator ∈ state.kept, operator ∈ session.gathering ∧ session.Feeds operator)
        ∧ ∀ need ∈ state.needed, need ∈ sinks ∨ ∃ consumer ∈ session.gathering,
          session.Feeds consumer ∧ need ∈ session.declarations.dependsOn consumer)
    · rintro start state producer state' - ⟨hkept, hneeded⟩ hproducer hvisit
      obtain ⟨-, ⟨need, hneed, hproduces⟩, rfl⟩ := Declarations.visitProducer_eq_some hvisit
      have hgathering : producer ∈ session.gathering := (List.mem_filter.mp hproducer).1
      have hfeeds : session.Feeds producer := by
        obtain hsink | ⟨consumer, hconsumer, hfeeds, hinput⟩ := hneeded need hneed
        · apply Feeds.sink h hsink hproduces
        · apply Feeds.input hconsumer hfeeds hinput hproduces
      constructor
      · intro other hother
        obtain rfl | hother := Finset.mem_insert.mp hother
        · use hgathering
        · apply hkept other hother
      · intro input hinput
        obtain hinput | hinput := Finset.mem_union.mp hinput
        · apply hneeded input hinput
        · right
          use producer, hgathering, hfeeds
    · constructor
      · nofun
      · intro need hneed
        left
        apply hneed
  apply (hall.1 operator hmem).2

/-- What is kept are the operators that feed the sinks. -/
theorem mem_pruned_iff {operator : O} :
  operator ∈ session.pruned ↔ operator ∈ session.gathering ∧ session.Feeds operator
  := by
  constructor
  · intro hmem
    apply And.intro (pruned_subset hmem)
    rw [pruned, Declarations.prunedGathering] at hmem
    split at hmem
    · rename_i h
      apply Feeds.unpruned h
    · rename_i sinks h
      have hkept := (List.mem_filter.mp hmem).2
      rw [Bool.or_eq_true, decide_eq_true_eq] at hkept
      obtain haggregator | hkept := hkept
      · apply Feeds.aggregator haggregator
      · apply feeds_of_mem_keptOperators h hkept
  · rintro ⟨hmem, hfeeds⟩
    induction hfeeds with
    | unpruned h =>
        rw [pruned_of_sinks_none h]
        apply hmem
    | aggregator haggregator =>
        rw [pruned, Declarations.prunedGathering]
        split
        · apply hmem
        · apply List.mem_filter.mpr
          use hmem
          rw [haggregator]
          rfl
    | sink h hneed hproduces =>
        apply followed_of_needed h _ _ hmem hproduces
        apply (Declarations.needed_keptOperators _ _ _).1 hneed
    | input hconsumer _ hneed hproduces ih =>
        apply followed_dependsOn _ hneed _ hmem hproduces
        apply List.mem_append_left _ (ih hconsumer)

/-- The pruned gather set is the gather set restricted to what feeds the sinks. -/
theorem pruned_eq_feeding (session : Session P C O) :
  session.pruned = session.feeding
  := by
  classical
  have hfilter : ∃ keep : O → Bool, session.pruned = session.gathering.filter keep := by
    rw [pruned, Declarations.prunedGathering]
    split
    · use fun _ => true
      rw [List.filter_true]
      rfl
    · rename_i sinks h
      use fun operator => session.declarations.isAggregator operator
        || operator ∈ (session.declarations.backwardReachable (session.gathering.filter
          (fun operator => !session.declarations.isAggregator operator)) session.capabilities
          sinks).1
      rfl
  obtain ⟨keep, hkeep⟩ := hfilter
  rw [hkeep, feeding]
  apply List.filter_congr
  intro operator hmem
  have hiff : operator ∈ session.pruned ↔ _ := mem_pruned_iff
  rw [hkeep, List.mem_filter] at hiff
  rw [Bool.eq_iff_iff, decide_eq_true_eq]
  constructor
  · intro htrue
    apply (hiff.mp ⟨hmem, htrue⟩).2
  · intro hfeeds
    apply (hiff.mpr ⟨hmem, hfeeds⟩).2

/-! ### The two closures -/

variable (session) in
/-- Pruning makes the closure smaller. -/
theorem closure_pruned_subset :
  (session.closure session.pruned).present ⊆ (session.closure session.gathering).present
    ∧ (session.closure session.pruned).ran ⊆ (session.closure session.gathering).ran
  := by
  apply Declarations.forwardClosure_mono pruned_subset

/-- A state of the unpruned flow whose classes come from operators that ran, of which those that
are kept also run in the pruned flow. -/
structure Traced (session : Session P C O) (state : Declarations.Forward P O) : Prop where
  present : state.present ⊆ (session.closure session.gathering).present
  ran : state.ran ⊆ (session.closure session.gathering).ran
  source : ∀ p ∈ state.present, p ∈ session.initial
    ∨ ∃ operator ∈ state.ran, p ∈ session.declarations.effectiveProduces operator
  kept : ∀ operator ∈ state.ran, operator ∈ session.pruned →
    operator ∈ (session.closure session.pruned).ran

/-- A class that is satisfied in the unpruned flow is produced in the pruned flow if it is
followed, or not starved. -/
theorem Traced.producible {state : Declarations.Forward P O} (h : session.Traced state)
    {required : P} (hfed : session.Followed required ∨ ¬session.Starved session.pruned required)
    (hsatisfied : session.declarations.satisfies state.present required = true) :
  session.producible session.pruned required = true
  := by
  obtain ⟨p, hp, hbelow⟩ := Declarations.satisfies_iff.mp hsatisfied
  obtain hinitial | ⟨operator, hran, hproduces⟩ := h.source p hp
  · apply Declarations.satisfies_iff.mpr
    use p, Declarations.subset_present.1 hinitial
  · have hfeeds : session.declarations.satisfies
        (session.declarations.effectiveProduces operator) required = true := by
      apply Declarations.satisfies_iff.mpr
      use p
    by_cases hpruned : operator ∈ session.pruned
    · apply Declarations.satisfies_iff.mpr
      use p, Declarations.subset_present.2 operator (h.kept operator hran hpruned) hproduces
    · obtain hfollowed | hstarved := hfed
      · have hgathering : operator ∈ session.gathering :=
          Declarations.mem_gathering_of_mem_ran (h.ran hran)
        exact absurd (hfollowed operator hgathering hfeeds) hpruned
      · by_contra hproducible
        rw [Bool.not_eq_true] at hproducible
        apply hstarved
        use ⟨operator, h.ran hran, hpruned, hfeeds⟩

/-- A capability that is required, and available in the unpruned flow, is available in the
pruned flow. -/
theorem Traced.available (hnone : session.NoneStarved session.pruned) {state : Declarations.Forward P O}
    (h : session.Traced state) {capabilityId : CapabilityId} {capability : C}
    (hmem : capabilityId ∈ session.declarations.computeAvailable session.registered
      session.permitted state.present)
    (hget : session.registered.get? capabilityId = some capability)
    (hrequired : session.Required session.kept capabilityId capability) :
  capabilityId ∈ session.available session.pruned
  := by
  have hstep : ∀ id capability, session.registered.get? id = some capability →
      id ∈ session.permitted →
      session.declarations.depsPresent (session.declarations.capabilityDependsOn capability)
        state.present = true →
      (∀ required ∈ session.declarations.capabilityRequires capability, ∃ baseId base,
        session.registered.get? baseId = some base
          ∧ (baseId ∈ session.available session.gathering
            ∧ (session.Required session.kept baseId base → baseId ∈ session.available session.pruned))
          ∧ session.declarations.capabilities.issubclass base required = true) →
      id ∈ session.available session.gathering
        ∧ (session.Required session.kept id capability → id ∈ session.available session.pruned) := by
    intro id capability hget hpermitted hdeps hbases
    have hgathered : id ∈ session.available session.gathering := by
      apply Declarations.mem_computeAvailable hget hpermitted
      · rw [Declarations.depsPresent_iff] at hdeps ⊢
        intro required hrequired
        apply Declarations.satisfies_mono h.present (hdeps required hrequired)
      · rw [Declarations.requiresAvailable_iff]
        intro required hrequired
        obtain ⟨baseId, base, hbaseGet, hbase, hbelow⟩ := hbases required hrequired
        use base, Declarations.mem_typesOf_iff.mpr ⟨baseId, hbase.1, hbaseGet⟩
    apply And.intro hgathered
    intro hrequired
    apply Declarations.mem_computeAvailable hget hpermitted
    · rw [Declarations.depsPresent_iff] at hdeps ⊢
      intro input hinput
      apply h.producible _ (hdeps input hinput)
      right
      apply hnone.capabilities id capability hrequired hgathered input hinput
    · rw [Declarations.requiresAvailable_iff]
      intro required hrequires
      obtain ⟨baseId, base, hbaseGet, hbase, hbelow⟩ := hbases required hrequires
      use base
      apply And.intro _ hbelow
      apply Declarations.mem_typesOf_iff.mpr
      use baseId
      apply And.intro _ hbaseGet
      apply hbase.2
      apply Required.ofCapability hrequired hrequires hbaseGet hbelow
  obtain ⟨capability', hget', -, havailable⟩ := Declarations.computeAvailable_induction
    (fun id capability => id ∈ session.available session.gathering
      ∧ (session.Required session.kept id capability → id ∈ session.available session.pruned)) hstep hmem
  rw [hget] at hget'
  obtain rfl := Option.some.inj hget'
  apply havailable hrequired

/-- A kept operator or an aggregator that is ready in the unpruned flow is ready in the pruned
flow. -/
theorem Traced.ready (hnone : session.NoneStarved session.pruned) {state : Declarations.Forward P O}
    (h : session.Traced state) {operator : O} (hkept : operator ∈ session.kept)
    (hready : session.declarations.isReady operator state.present
      (session.declarations.availableTypes session.registered session.permitted state.present)
        = true) :
  session.ready session.pruned operator = true
  := by
  rw [Declarations.isReady_iff] at hready
  obtain ⟨hinputs, hrequires⟩ := hready
  apply Declarations.isReady_iff.mpr
  constructor
  · intro required hrequired
    apply h.producible _ (hinputs required hrequired)
    left
    apply followed_dependsOn hkept hrequired
  · intro required hrequired
    obtain ⟨capability, hcapability, hbelow⟩ := hrequires required hrequired
    obtain ⟨capabilityId, hmem, hget⟩ := Declarations.mem_availableTypes_iff.mp hcapability
    use capability
    apply And.intro _ hbelow
    apply Declarations.mem_availableTypes_iff.mpr
    use capabilityId
    apply And.intro _ hget
    apply h.available hnone hmem hget
    apply Required.ofOperator hkept hrequired hget hbelow

/-- The unpruned flow is traced to its end. -/
theorem traced_closure (hnone : session.NoneStarved session.pruned) :
  session.Traced (session.closure session.gathering)
  := by
  apply Declarations.forwardClosure_invariant (fun state => session.Traced state)
  · constructor
    · apply Declarations.subset_present.1
    · apply Finset.empty_subset
    · intro p hp
      left
      apply hp
    · nofun
  · intro state operator h hmem hready
    obtain ⟨hpresent, hran⟩ := Declarations.step_subset_forwardClosure h.present h.ran hmem hready
    constructor
    · apply hpresent
    · apply hran
    · intro p hp
      obtain hp | hp := Finset.mem_union.mp hp
      · obtain hinitial | ⟨producer, hproducer, hproduces⟩ := h.source p hp
        · left
          apply hinitial
        · right
          use producer, Finset.mem_insert_of_mem hproducer
      · right
        use operator, Finset.mem_insert_self _ _
    · intro other hother hpruned
      obtain rfl | hother := Finset.mem_insert.mp hother
      · apply Declarations.mem_ran_of_isReady hpruned
        apply h.ready hnone (List.mem_append_left _ hpruned) hready
      · apply h.kept other hother hpruned

/-! ### The main result -/

/-- Without starved inputs pruning preserves the behaviour of what it keeps. -/
theorem NoneStarved.pruningPreserves (hnone : session.NoneStarved session.pruned) :
  session.PruningPreserves
  := by
  have htraced := traced_closure hnone
  have hsub := session.closure_pruned_subset.1
  have hproducible : ∀ required, session.Followed required ∨ ¬session.Starved session.pruned required →
      session.producible session.gathering required
        = session.producible session.pruned required := by
    intro required hfed
    rw [Bool.eq_iff_iff]
    constructor
    · apply htraced.producible hfed
    · apply Declarations.satisfies_mono hsub
  constructor
  · intro operator hkept
    rw [Bool.eq_iff_iff]
    constructor
    · apply htraced.ready hnone hkept
    · apply Declarations.isReady_mono hsub (Declarations.availableTypes_mono hsub)
  · intro capabilityId capability hrequired
    constructor
    · intro hmem
      have hget : session.registered.get? capabilityId = some capability := by
        cases hrequired with
        | ofOperator _ _ hget _ => apply hget
        | ofCapability _ _ hget _ => apply hget
      apply htraced.available hnone hmem hget hrequired
    · apply Declarations.computeAvailable_mono hsub
  · intro condition hcondition
    obtain hsame | ⟨types, htypes, hfollowed⟩ := followed_completion hcondition
    · rw [hsame]
    · apply CompletionCondition.isSatisfied_congr htypes
      intro required hrequired
      apply hproducible
      left
      apply hfollowed required hrequired
  · intro operator hkept required hrequired
    apply hproducible
    obtain hrequired | hrequired := Finset.mem_union.mp hrequired
    · left
      apply followed_dependsOn hkept hrequired
    · right
      apply hnone.uses operator hkept required hrequired

/-- A starved class is produced in the unpruned flow. -/
theorem Starved.producible {required : P} (h : session.Starved session.pruned required) :
  session.producible session.gathering required = true
  := by
  obtain ⟨⟨operator, hran, -, hproduces⟩, -⟩ := h
  apply Declarations.satisfies_mono _ hproduces
  apply Declarations.subset_present.2 operator hran

/-- Pruning preserves the behaviour of what it keeps exactly when no input is starved that the
backward pass does not follow. -/
theorem pruning_preserves_iff (session : Session P C O) :
  session.PruningPreserves ↔ session.NoneStarved session.feeding
  := by
  rw [← pruned_eq_feeding]
  constructor
  · intro h
    constructor
    · intro operator hkept required hrequired hstarved
      have hsame := h.inputs operator hkept required (Finset.mem_union_right _ hrequired)
      rw [hstarved.producible, hstarved.2] at hsame
      cases hsame
    · intro capabilityId capability hrequired hmem input hinput hstarved
      have hget : session.registered.get? capabilityId = some capability := by
        cases hrequired with
        | ofOperator _ _ hget _ => apply hget
        | ofCapability _ _ hget _ => apply hget
      have hmem' := (h.available capabilityId capability hrequired).mp hmem
      have hdeps := Declarations.depsPresent_of_mem_computeAvailable hmem' hget
      have hsatisfied := Declarations.depsPresent_iff.mp hdeps input hinput
      have hproducible := hstarved.2
      rw [Session.producible, hsatisfied] at hproducible
      cases hproducible
  · intro hnone
    apply hnone.pruningPreserves

/-- A flow whose scoring needs a capability that works on looked-up addresses. -/
def lookupFlow : Session String String String where
  declarations := {
    dataPoints := .flat String
    abstractTypes := ∅
    registeredLeaves := ["address", "risk"]
    capabilities := .flat String
    capabilityId := id
    capabilityDependsOn := fun capability => if capability = "geo" then {"address"} else ∅
    capabilityRequires := fun _ => ∅
    operatorId := id
    dependsOn := fun _ => ∅
    uses := fun _ => ∅
    produces := fun operator =>
      if operator = "lookup" then {"address"} else if operator = "score" then {"risk"} else ∅
    requires := fun operator => if operator = "score" then {"geo"} else ∅
    aggregator := fun operator => if operator = "report" then some ⟨false, {"risk"}⟩ else none }
  operators := ["lookup", "score", "report"]
  capabilities := ["geo"]
  completesWhen := some (.typePresent "risk")
  permitted := {"geo"}
  initial := ∅

/-- The lookup is dropped, and with it the scoring never becomes ready. -/
theorem pruning_starves_scoring :
  lookupFlow.declarations.sinks lookupFlow.operators lookupFlow.completesWhen = some {"risk"}
    ∧ ¬lookupFlow.PruningPreserves
  := by
  constructor
  · decide
  · intro h
    have hready := h.ready "score" (by decide)
    revert hready
    decide

end Session

end Orcastork
