import Mathlib.Data.Finset.Prod
import Mathlib.Data.String.Basic
import Orcastork.Graph.Declarations

/-!
# The dependency graph

`build_graph` connects what provides to what depends on it: an operator to the operators and
capabilities with an input it produces, and a capability to those that require it. Inputs an
operator only `uses` are not among its edges.

What an operator may emit unreported is more than what it is treated as producing: a leaf below a
concrete class that it declares is declared too, and is not among its effective products. Where such
a leaf is what a consumer depends on, there is no edge (`edge_of_emission_iff`).
-/

namespace Orcastork

/-! ### Names in order -/

instance isTrans_name : IsTrans String (· ≤ ·) := instIsTransLe

instance antisymm_name : Std.Antisymm (fun a b : String => a ≤ b) := instAntisymmLe

/-! ### Graphs -/

/-- A node of the graph: an operator or a capability. -/
inductive Node (C O : Type) where
  | operator (operator : O)
  | capability (capability : C)
  deriving DecidableEq

/-- The adjacency map of a graph: its nodes, and which has which among its successors. -/
structure DependencyGraph (C O : Type) where
  nodes : Finset (Node C O)
  edges : Finset (Node C O × Node C O)

namespace Declarations

variable {P C O : Type} (declarations : Declarations P C O)

/-- The declared inputs of a node. -/
def nodeDependsOn : Node C O → Finset P
  | .operator operator => declarations.dependsOn operator
  | .capability capability => declarations.capabilityDependsOn capability

/-- The declared requirements of a node. -/
def nodeRequires : Node C O → Finset C
  | .operator operator => declarations.requires operator
  | .capability capability => declarations.capabilityRequires capability

variable [DecidableEq P] [DecidableEq C] [DecidableEq O]

/-- A node provides something that another depends on. -/
def provides : Node C O → Node C O → Bool
  | .operator producer, consumer =>
    decide (∃ required ∈ declarations.nodeDependsOn consumer,
      declarations.satisfies (declarations.effectiveProduces producer) required = true)
  | .capability provider, requirer =>
    decide (∃ required ∈ declarations.nodeRequires requirer,
      declarations.capabilities.issubclass provider required = true)

/-- `build_graph`. -/
def buildGraph (operators : List O) (capabilities : List C) : DependencyGraph C O :=
  let nodes := (operators.map Node.operator ++ capabilities.map Node.capability).toFinset
  ⟨nodes, (nodes ×ˢ nodes).filter (fun edge => declarations.provides edge.1 edge.2 = true)⟩

variable {declarations}

/-- The nodes are the operators and the capabilities. -/
theorem mem_nodes_buildGraph {operators : List O} {capabilities : List C} {node : Node C O} :
  node ∈ (declarations.buildGraph operators capabilities).nodes
    ↔ (∃ operator ∈ operators, Node.operator operator = node)
      ∨ ∃ capability ∈ capabilities, Node.capability capability = node
  := by
  rw [buildGraph, List.mem_toFinset, List.mem_append, List.mem_map, List.mem_map]

/-! ### Emissions and edges -/

omit [DecidableEq P] [DecidableEq C] [DecidableEq O] in
variable (declarations) in
/-- A leaf is an instance of a class that an operator declares to produce, so that
`_check_emission_declared` does not report it. -/
def emissionDeclared (operator : O) (leaf : P) : Bool :=
  decide (∃ declared ∈ declarations.produces operator,
    declarations.dataPoints.issubclass leaf declared = true)

variable (declarations) in
/-- Something that an operator declares feeds a node: a concrete class below one of its inputs, or
an abstract class with a registered leaf below one of them. -/
def Feeds (producer : O) (consumer : Node C O) : Prop :=
  ∃ declared ∈ declarations.produces producer, ∃ required ∈ declarations.nodeDependsOn consumer,
    declared ∉ declarations.abstractTypes
        ∧ declarations.dataPoints.issubclass declared required = true
      ∨ declared ∈ declarations.abstractTypes ∧ ∃ leaf ∈ declarations.registeredLeaves,
        declarations.dataPoints.issubclass leaf declared = true
          ∧ declarations.dataPoints.issubclass leaf required = true

omit [DecidableEq C] [DecidableEq O] in
/-- What an operator is treated as producing. -/
theorem mem_effectiveProduces_iff {operator : O} {produced : P} :
  produced ∈ declarations.effectiveProduces operator
    ↔ ∃ declared ∈ declarations.produces operator,
      declared ∉ declarations.abstractTypes ∧ produced = declared
        ∨ declared ∈ declarations.abstractTypes ∧ produced ∈ declarations.registeredLeaves
          ∧ declarations.dataPoints.issubclass produced declared = true
  := by
  rw [effectiveProduces, Finset.mem_biUnion]
  apply exists_congr
  intro declared
  apply and_congr_right
  intro _
  split
  · rename_i habstract
    rw [List.mem_toFinset, subtypesOf, List.mem_filter]
    constructor
    · exact fun hleaf => Or.inr ⟨habstract, hleaf⟩
    · rintro (⟨hconcrete, -⟩ | ⟨-, hleaf⟩)
      · exact absurd habstract hconcrete
      · exact hleaf
  · rename_i hconcrete
    rw [Finset.mem_singleton]
    constructor
    · exact fun hsame => Or.inl ⟨hconcrete, hsame⟩
    · rintro (⟨-, hsame⟩ | ⟨habstract, -⟩)
      · exact hsame
      · exact absurd habstract hconcrete

omit [DecidableEq C] [DecidableEq O] in
/-- An operator provides for what it feeds. -/
theorem provides_operator_iff {producer : O} {consumer : Node C O} :
  declarations.provides (.operator producer) consumer = true ↔ declarations.Feeds producer consumer
  := by
  rw [provides, decide_eq_true_eq]
  simp only [satisfies_iff, mem_effectiveProduces_iff]
  constructor
  · rintro ⟨required, hrequired, produced, ⟨declared, hdeclared, hproduces⟩, hbelow⟩
    refine ⟨declared, hdeclared, required, hrequired, ?_⟩
    rcases hproduces with ⟨hconcrete, rfl⟩ | ⟨habstract, hleaf, hsub⟩
    · exact Or.inl ⟨hconcrete, hbelow⟩
    · exact Or.inr ⟨habstract, produced, hleaf, hsub, hbelow⟩
  · rintro ⟨declared, hdeclared, required, hrequired, ⟨hconcrete, hbelow⟩ | ⟨habstract, leaf, hleaf,
      hsub, hbelow⟩⟩
    · exact ⟨required, hrequired, declared, ⟨declared, hdeclared, Or.inl ⟨hconcrete, rfl⟩⟩, hbelow⟩
    · exact ⟨required, hrequired, leaf, ⟨declared, hdeclared, Or.inr ⟨habstract, hleaf, hsub⟩⟩,
        hbelow⟩

/-- The edges are between nodes of the graph. -/
theorem mem_edges_buildGraph {operators : List O} {capabilities : List C} {edge : Node C O × Node C O} :
  edge ∈ (declarations.buildGraph operators capabilities).edges
    ↔ edge.1 ∈ (declarations.buildGraph operators capabilities).nodes
      ∧ edge.2 ∈ (declarations.buildGraph operators capabilities).nodes
      ∧ declarations.provides edge.1 edge.2 = true
  := by
  rw [buildGraph, Finset.mem_filter, Finset.mem_product, and_assoc]

/-- An operator has an edge to every consumer that depends on a leaf it may emit, exactly if each
such leaf properly below a concrete class it declares comes with another reason for the edge. -/
theorem edge_of_emission_iff (declarations : Declarations P C O) {operators : List O}
    {capabilities : List C} {producer : O} (hproducer : producer ∈ operators)
    {consumer : Node C O}
    (hconsumer : consumer ∈ (declarations.buildGraph operators capabilities).nodes) :
  (∀ leaf ∈ declarations.registeredLeaves, declarations.emissionDeclared producer leaf = true →
      (∃ required ∈ declarations.nodeDependsOn consumer,
        declarations.dataPoints.issubclass leaf required = true) →
      (Node.operator producer, consumer)
        ∈ (declarations.buildGraph operators capabilities).edges)
    ↔ ∀ declared ∈ declarations.produces producer, declared ∉ declarations.abstractTypes →
      ∀ leaf ∈ declarations.registeredLeaves, leaf ≠ declared →
        declarations.dataPoints.issubclass leaf declared = true →
        (∃ required ∈ declarations.nodeDependsOn consumer,
          declarations.dataPoints.issubclass leaf required = true) →
        declarations.Feeds producer consumer
  := by
  have hedge : (Node.operator producer, consumer)
      ∈ (declarations.buildGraph operators capabilities).edges
      ↔ declarations.Feeds producer consumer := by
    rw [mem_edges_buildGraph, provides_operator_iff]
    constructor
    · exact fun h => h.2.2
    · exact fun h => ⟨mem_nodes_buildGraph.mpr (Or.inl ⟨producer, hproducer, rfl⟩), hconsumer, h⟩
  simp only [hedge, emissionDeclared, decide_eq_true_eq]
  constructor
  · intro h declared hdeclared _ leaf hleaf _ hsub hrequired
    exact h leaf hleaf ⟨declared, hdeclared, hsub⟩ hrequired
  · rintro h leaf hleaf ⟨declared, hdeclared, hsub⟩ ⟨required, hrequired, hbelow⟩
    by_cases habstract : declared ∈ declarations.abstractTypes
    · exact ⟨declared, hdeclared, required, hrequired,
        Or.inr ⟨habstract, leaf, hleaf, hsub, hbelow⟩⟩
    · by_cases hsame : leaf = declared
      · rw [hsame] at hbelow
        exact ⟨declared, hdeclared, required, hrequired, Or.inl ⟨habstract, hbelow⟩⟩
      · exact h declared hdeclared habstract leaf hleaf hsame hsub ⟨required, hrequired, hbelow⟩

end Declarations

/-! ### A leaf below a leaf -/

/-- An operator that emits emails, one that depends on work emails, and one that depends on emails;
a work email is an email, and both are leaves. -/
def emailDeclarations : Declarations String String String where
  dataPoints :=
    { issubclass := fun a b => decide (a = b ∨ a = "work_email" ∧ b = "email")
      issubclass_refl := fun a => decide_eq_true (Or.inl rfl)
      issubclass_trans := by
        intro a b c hab hbc
        rw [decide_eq_true_eq] at hab hbc ⊢
        rcases hab with rfl | ⟨rfl, rfl⟩
        · exact hbc
        · rcases hbc with rfl | ⟨hsame, -⟩
          · exact Or.inr ⟨rfl, rfl⟩
          · exact absurd hsame (by decide) }
  abstractTypes := ∅
  registeredLeaves := ["email", "work_email"]
  capabilities := .flat String
  capabilityId := id
  capabilityDependsOn := fun _ => ∅
  capabilityRequires := fun _ => ∅
  operatorId := id
  dependsOn := fun operator =>
    if operator = "work_reader" then {"work_email"}
    else if operator = "reader" then {"email"}
    else ∅
  uses := fun _ => ∅
  produces := fun operator => if operator = "collector" then {"email"} else ∅
  requires := fun _ => ∅
  aggregator := fun _ => none

/-- The collector may emit a work email, and has no edge to what depends on one. -/
theorem missed_edge_work_email :
  ¬∀ leaf ∈ emailDeclarations.registeredLeaves,
    emailDeclarations.emissionDeclared "collector" leaf = true →
    (∃ required ∈ emailDeclarations.nodeDependsOn (.operator "work_reader" : Node String String),
      emailDeclarations.dataPoints.issubclass leaf required = true) →
    (Node.operator "collector", Node.operator "work_reader")
      ∈ (emailDeclarations.buildGraph ["collector", "work_reader"] []).edges
  := by
  intro h
  have hedge := h "work_email" (by decide) (by decide) (by decide)
  revert hedge
  decide

/-- It has one to what depends on emails, which a work email is, as an email is what it declares. -/
theorem edge_of_emission_email :
  emailDeclarations.emissionDeclared "collector" "work_email" = true
    ∧ (Node.operator "collector", Node.operator "reader")
      ∈ (emailDeclarations.buildGraph ["collector", "reader"] []).edges
  := by
  refine ⟨by decide, (Declarations.edge_of_emission_iff emailDeclarations (by decide)
    (by decide)).mpr ?_ "work_email" (by decide) (by decide) (by decide)⟩
  intro declared _ _ leaf _ _ _ _
  exact ⟨"email", by decide, "email", by decide, Or.inl (by decide)⟩

end Orcastork
