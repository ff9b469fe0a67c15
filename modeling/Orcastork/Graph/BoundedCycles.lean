import Mathlib.Data.String.Basic
import Mathlib.Data.Multiset.Sort
import Orcastork.Graph.Builder
import Orcastork.Graph.Cycles

/-!
# The bounded-cycle rule

`validate_acyclic_or_bounded` permits a component of the graph if it has an operator and each
operator in it declares `max_cycles`. The rule it stands for is about cycles: each must contain an
operator to bound. A component with an operator can have a cycle of capabilities only, and once the
operator is excluded that cycle is all that is left of it (`bounded_rule_iff`).
-/

namespace Orcastork

open Components

variable {N C O : Type} [DecidableEq N] [DecidableEq C] [DecidableEq O]

namespace Node

omit [DecidableEq C] [DecidableEq O]

/-- The node is an operator. -/
def isOperator : Node C O → Bool
  | .operator _ => true
  | .capability _ => false

/-- The node is an operator whose policy has no `max_cycles`. -/
def isUnbounded (maxCycles : O → Option ℤ) : Node C O → Bool
  | .operator op => (maxCycles op).isNone
  | .capability _ => false

theorem isOperator_iff {node : Node C O} :
  node.isOperator = true ↔ ∃ op, node = .operator op
  := by
  cases node <;> simp [isOperator]

theorem isUnbounded_iff {maxCycles : O → Option ℤ} {node : Node C O} :
  node.isUnbounded maxCycles = true ↔ ∃ op, node = .operator op ∧ maxCycles op = none
  := by
  cases node <;> simp [isUnbounded]

end Node

/-- `UnboundedCycleError`, with the names its message lists. -/
inductive UnboundedCycleError where
  | noBoundableOperator (names : List String)
  | withoutMaxCycles (names : List String)

/-- The names of some nodes, sorted. -/
def sortedNames (name : Node C O → String) (nodes : Finset (Node C O)) : List String :=
  (nodes.val.map name).sort (· ≤ ·)

/-- The check of one component. -/
def checkCycle (name : Node C O → String) (maxCycles : O → Option ℤ)
    (cycle : Finset (Node C O)) : Except UnboundedCycleError Unit :=
  let operatorsOnCycle := cycle.filter (fun node => node.isOperator = true)
  if operatorsOnCycle = ∅ then
    .error (.noBoundableOperator (sortedNames name cycle))
  else
    let unbounded := operatorsOnCycle.filter (fun node => node.isUnbounded maxCycles = true)
    if unbounded ≠ ∅ then
      .error (.withoutMaxCycles (sortedNames name unbounded))
    else
      .ok ()

/-- `validate_acyclic_or_bounded`. -/
def validateAcyclicOrBounded (name : Node C O → String) (maxCycles : O → Option ℤ)
    (edges : Dict (Node C O) (List (Node C O))) : Option (Except UnboundedCycleError Unit) := do
  let cycles ← findCycles edges
  some (forM cycles (checkCycle name maxCycles))

/-- The check raises nothing. -/
def Accepted (name : Node C O → String) (maxCycles : O → Option ℤ)
    (edges : Dict (Node C O) (List (Node C O))) : Prop :=
  validateAcyclicOrBounded name maxCycles edges = some (.ok ())

/-- The graph without the nodes that are not kept. `restrict_to_permitted` keeps the operators and
the capabilities that are permitted, `_exclude_unpermitted_operators` the operators that are. -/
def restrict (keep : N → Bool) (edges : Dict N (List N)) : Dict N (List N) where
  items := (edges.items.filter (fun item => keep item.1)).map
    (fun item => (item.1, item.2.filter (fun successor => keep successor)))
  nodup := by
    rw [List.map_map]
    exact (List.filter_sublist.map Prod.fst).nodup edges.nodup

/-! ### What is accepted -/

/-- The components that pass have an operator, and bounds on all of theirs. -/
theorem checkCycle_eq_ok_iff {name : Node C O → String} {maxCycles : O → Option ℤ}
    {cycle : Finset (Node C O)} :
  checkCycle name maxCycles cycle = .ok ()
    ↔ (∃ operator, Node.operator operator ∈ cycle)
      ∧ ∀ operator, Node.operator operator ∈ cycle → maxCycles operator ≠ none
  := by
  have hnone : cycle.filter (fun node => node.isOperator = true) = ∅
      ↔ ¬∃ operator, Node.operator operator ∈ cycle := by
    rw [Finset.filter_eq_empty_iff]
    constructor
    · rintro hnone ⟨operator, hmem⟩
      exact hnone hmem rfl
    · rintro hnone node hmem hoperator
      obtain ⟨operator, rfl⟩ := Node.isOperator_iff.mp hoperator
      exact hnone ⟨operator, hmem⟩
  have hbounded : (cycle.filter (fun node => node.isOperator = true)).filter
        (fun node => node.isUnbounded maxCycles = true) = ∅
      ↔ ∀ operator, Node.operator operator ∈ cycle → maxCycles operator ≠ none := by
    rw [Finset.filter_eq_empty_iff]
    constructor
    · intro hbounded operator hmem hcap
      exact hbounded (Finset.mem_filter.mpr ⟨hmem, rfl⟩)
        (Node.isUnbounded_iff.mpr ⟨operator, rfl, hcap⟩)
    · intro hbounded node hmem hunbounded
      obtain ⟨operator, rfl, hcap⟩ := Node.isUnbounded_iff.mp hunbounded
      exact hbounded operator (Finset.mem_filter.mp hmem).1 hcap
  rw [checkCycle]
  split
  · rename_i hempty
    exact iff_of_false nofun (fun h => hnone.mp hempty h.1)
  · rename_i hsome
    rw [hnone, not_not] at hsome
    dsimp only
    split
    · rename_i hunbounded
      rw [ne_eq, hbounded] at hunbounded
      exact iff_of_false nofun (fun h => hunbounded h.2)
    · rename_i hall
      rw [ne_eq, not_not, hbounded] at hall
      exact iff_of_true rfl ⟨hsome, hall⟩

/-- A loop that raises at the first failure raises nothing if there is none. -/
theorem forM_eq_ok_iff {α ε : Type} {check : α → Except ε Unit} {l : List α} :
  forM l check = .ok () ↔ ∀ a ∈ l, check a = .ok ()
  := by
  induction l with
  | nil => exact iff_of_true rfl (fun a ha => absurd ha List.not_mem_nil)
  | cons a l ih =>
      rw [List.forM_cons, List.forall_mem_cons, ← ih]
      cases check a with
      | error e => exact iff_of_false nofun (fun h => nomatch h.1)
      | ok _ => exact (and_iff_right rfl).symm

/-- A graph is accepted if each of its cyclic components passes. -/
theorem accepted_iff {name : Node C O → String} {maxCycles : O → Option ℤ}
    {edges : Dict (Node C O) (List (Node C O))} :
  Accepted name maxCycles edges
    ↔ ∀ component, IsComponent (Edge edges) component → IsCyclic (Edge edges) component →
      (∃ operator, Node.operator operator ∈ component)
        ∧ ∀ operator, Node.operator operator ∈ component → maxCycles operator ≠ none
  := by
  obtain ⟨cycles, hcycles, -, hmem⟩ := findCycles_exact edges
  rw [Accepted, validateAcyclicOrBounded, hcycles]
  simp only [Option.bind_eq_bind, Option.bind_some, Option.some.injEq, forM_eq_ok_iff, hmem,
    checkCycle_eq_ok_iff, and_imp]

/-- A graph without edges is accepted. -/
theorem accepted_of_edgeless {name : Node C O → String} {maxCycles : O → Option ℤ}
    {edges : Dict (Node C O) (List (Node C O))} (h : ∀ node successor, ¬Edge edges node successor) :
  Accepted name maxCycles edges
  := by
  rw [accepted_iff]
  intro component hcomponent hcyclic
  obtain ⟨node, hmem, -⟩ := id hcomponent
  obtain ⟨successor, hedge, -⟩ :=
    Relation.TransGen.head'_iff.mp (hcomponent.transGen hcyclic hmem)
  cases h node successor hedge

/-! ### Removing nodes -/

theorem edge_iff {edges : Dict N (List N)} {node successor : N} :
  Edge edges node successor ↔ ∃ targets, (node, targets) ∈ edges.items ∧ successor ∈ targets
  := by
  rw [Edge, successors]
  constructor
  · intro h
    cases hget : edges.get? node with
    | none =>
        rw [hget] at h
        exact absurd h List.not_mem_nil
    | some targets =>
        rw [hget] at h
        exact ⟨targets, Dict.get?_eq_some_iff.mp hget, h⟩
  · rintro ⟨targets, hitem, hmem⟩
    rw [Dict.get?_eq_some_iff.mpr hitem]
    exact hmem

/-- The edges that are left are those between nodes that are kept. -/
theorem edge_restrict_iff {keep : N → Bool} {edges : Dict N (List N)} {node successor : N} :
  Edge (restrict keep edges) node successor
    ↔ Edge edges node successor ∧ keep node = true ∧ keep successor = true
  := by
  rw [edge_iff, edge_iff]
  simp only [restrict, List.mem_map, List.mem_filter, Prod.exists, Prod.mk.injEq]
  constructor
  · rintro ⟨_, ⟨_, targets, ⟨hitem, hkeep⟩, rfl, rfl⟩, hmem⟩
    obtain ⟨hmem, hkeep'⟩ := List.mem_filter.mp hmem
    exact ⟨⟨targets, hitem, hmem⟩, hkeep, hkeep'⟩
  · rintro ⟨⟨targets, hitem, hmem⟩, hkeep, hkeep'⟩
    exact ⟨_, ⟨node, targets, ⟨hitem, hkeep⟩, rfl, rfl⟩, List.mem_filter.mpr ⟨hmem, hkeep'⟩⟩

/-- The nodes of a cycle are within a cyclic component. -/
theorem exists_component_of_isCycle {edges : Dict N (List N)} {cycle : List N}
    (h : IsCycle (Edge edges) cycle) :
  ∃ component, IsComponent (Edge edges) component ∧ IsCyclic (Edge edges) component
    ∧ ∀ node ∈ cycle, node ∈ component
  := by
  obtain ⟨start, hstart⟩ := h.exists_mem
  have hall : ∀ node, Mutual (Edge edges) start node → node ∈ allNodes edges := by
    rintro node ⟨hto, -⟩
    obtain ⟨_, -, hedge⟩ :=
      Relation.TransGen.tail'_iff.mp ((h.transGen hstart hstart).trans_left hto)
    exact mem_allNodes_of_edge hedge
  obtain ⟨component, hcomponent, hmem⟩ := exists_isComponent hall
  exact ⟨component, hcomponent, h.subset_component hcomponent hstart hmem⟩

/-! ### The rule -/

/-- Every cycle contains an operator, and the operators on it declare `max_cycles`. -/
def CyclesBounded (maxCycles : O → Option ℤ) (edges : Dict (Node C O) (List (Node C O))) : Prop :=
  ∀ cycle, IsCycle (Edge edges) cycle →
    (∃ operator, Node.operator operator ∈ cycle)
      ∧ ∀ operator, Node.operator operator ∈ cycle → maxCycles operator ≠ none

section Rule

variable {name : Node C O → String} {maxCycles : O → Option ℤ}
variable {edges : Dict (Node C O) (List (Node C O))}

/-- The rule is kept when nodes are removed. -/
theorem CyclesBounded.restrict (h : CyclesBounded maxCycles edges) (keep : Node C O → Bool) :
  CyclesBounded maxCycles (restrict keep edges)
  := by
  intro cycle hcycle
  apply h cycle
  apply hcycle.mono
  intro a _ b _ hedge
  exact (edge_restrict_iff.mp hedge).1

/-- A graph that obeys the rule is accepted. -/
theorem CyclesBounded.accepted (h : CyclesBounded maxCycles edges) :
  Accepted name maxCycles edges
  := by
  rw [accepted_iff]
  intro component hcomponent hcyclic
  constructor
  · obtain ⟨start, hstart, -⟩ := id hcomponent
    obtain ⟨cycle, hcycle, -, hmem⟩ := hcomponent.exists_isCycle hcyclic hstart
    obtain ⟨operator, hoperator⟩ := (h cycle hcycle).1
    exact ⟨operator, hmem _ hoperator⟩
  · intro operator hoperator
    obtain ⟨cycle, hcycle, hon, -⟩ := hcomponent.exists_isCycle hcyclic hoperator
    exact (h cycle hcycle).2 operator hon

/-- A graph that is accepted obeys the rule but for cycles that contain no operator. -/
theorem Accepted.cyclesBounded (h : Accepted name maxCycles edges)
    (hoperators : ∀ cycle, IsCycle (Edge edges) cycle →
      ∃ operator, Node.operator operator ∈ cycle) :
  CyclesBounded maxCycles edges
  := by
  intro cycle hcycle
  use hoperators cycle hcycle
  intro operator hoperator
  obtain ⟨component, hcomponent, hcyclic, hmem⟩ := exists_component_of_isCycle hcycle
  exact (accepted_iff.mp h component hcomponent hcyclic).2 operator (hmem _ hoperator)

/-- A cycle that contains no operator is refused once all operators are removed. -/
theorem not_accepted_of_capability_cycle {cycle : List (Node C O)}
    (hcycle : IsCycle (Edge edges) cycle) (hnone : ∀ operator, Node.operator operator ∉ cycle) :
  ¬Accepted name maxCycles (restrict (fun node => !node.isOperator) edges)
  := by
  intro haccepted
  have hkept : ∀ node ∈ cycle, (!node.isOperator) = true := by
    intro node hnode
    rw [Bool.not_eq_true', Bool.eq_false_iff, ne_eq, Node.isOperator_iff]
    rintro ⟨operator, rfl⟩
    exact hnone operator hnode
  have hleft : IsCycle (Edge (restrict (fun node => !node.isOperator) edges)) cycle := by
    apply hcycle.mono
    intro a ha b hb hedge
    exact edge_restrict_iff.mpr ⟨hedge, hkept a ha, hkept b hb⟩
  obtain ⟨component, hcomponent, hcyclic, -⟩ := exists_component_of_isCycle hleft
  obtain ⟨operator, hoperator⟩ := (accepted_iff.mp haccepted component hcomponent hcyclic).1
  obtain ⟨successor, hedge, -⟩ :=
    Relation.TransGen.head'_iff.mp (hcomponent.transGen hcyclic hoperator)
  have hkeep := (edge_restrict_iff.mp hedge).2.1
  cases hkeep

/-- What is accepted obeys the rule, and goes on being accepted when nodes are removed, exactly if
no component is accepted that has a cycle of capabilities only. -/
theorem bounded_rule_iff (name : Node C O → String) (maxCycles : O → Option ℤ)
    (edges : Dict (Node C O) (List (Node C O))) :
  (Accepted name maxCycles edges ↔ CyclesBounded maxCycles edges)
      ∧ (Accepted name maxCycles edges →
        ∀ keep, Accepted name maxCycles (restrict keep edges))
    ↔ ((∃ cycle, IsCycle (Edge edges) cycle ∧ ∀ operator, Node.operator operator ∉ cycle) →
      (∃ cycle operator, IsCycle (Edge edges) cycle ∧ Node.operator operator ∈ cycle
          ∧ maxCycles operator = none)
        ∨ ∃ component, IsComponent (Edge edges) component ∧ IsCyclic (Edge edges) component
          ∧ ∀ operator, Node.operator operator ∉ component)
  := by
  constructor
  · rintro ⟨-, hremoved⟩ ⟨cycle, hcycle, hnone⟩
    by_contra hneither
    rw [not_or] at hneither
    obtain ⟨hunbounded, hcomponents⟩ := hneither
    refine not_accepted_of_capability_cycle hcycle hnone (hremoved ?_ _)
    rw [accepted_iff]
    intro component hcomponent hcyclic
    constructor
    · by_contra hnot
      exact hcomponents ⟨component, hcomponent, hcyclic, not_exists.mp hnot⟩
    · intro operator hoperator hcap
      obtain ⟨cycle, hcycle, hon, -⟩ := hcomponent.exists_isCycle hcyclic hoperator
      exact hunbounded ⟨cycle, operator, hcycle, hon, hcap⟩
  · intro hcondition
    have hrule : Accepted name maxCycles edges → CyclesBounded maxCycles edges := by
      intro haccepted
      apply haccepted.cyclesBounded
      intro cycle hcycle
      by_contra hnone
      rcases hcondition ⟨cycle, hcycle, not_exists.mp hnone⟩ with
        ⟨cycle', operator, hcycle', hon, hcap⟩ | ⟨component, hcomponent, hcyclic, hnot⟩
      · obtain ⟨component, hcomponent, hcyclic, hmem⟩ := exists_component_of_isCycle hcycle'
        exact (accepted_iff.mp haccepted component hcomponent hcyclic).2 operator
          (hmem _ hon) hcap
      · obtain ⟨operator, hoperator⟩ :=
          (accepted_iff.mp haccepted component hcomponent hcyclic).1
        exact hnot operator hoperator
    constructor
    · exact ⟨hrule, CyclesBounded.accepted⟩
    · intro haccepted keep
      exact ((hrule haccepted).restrict keep).accepted

end Rule

/-! ### Two capabilities and an operator -/

/-- An operator that requires the first of two capabilities, which require each other, and produces
what the first depends on. -/
def sharedEdges : Dict (Node String String) (List (Node String String)) :=
  ((Dict.empty.set (.operator "login") [.capability "session"]).set
    (.capability "session") [.operator "login", .capability "token"]).set
    (.capability "token") [.capability "session"]

/-- The graph is accepted, and refused once the operator is excluded. -/
theorem accepted_until_excluded :
  ¬((Accepted (fun _ => "node") (fun _ => some 3) sharedEdges
        ↔ CyclesBounded (fun _ => some 3) sharedEdges)
      ∧ (Accepted (fun _ => "node") (fun _ => some 3) sharedEdges →
        ∀ keep, Accepted (fun _ => "node") (fun _ => some 3) (restrict keep sharedEdges)))
  := by
  rintro ⟨-, hremoved⟩
  have haccepted : Accepted (fun _ => "node") (fun _ => some 3) sharedEdges := by
    rfl
  have hcycle : IsCycle (Edge sharedEdges) [.capability "session", .capability "token"] := by
    constructor
    · decide
    · apply List.IsChain.cons_cons
      · show _ ∈ successors _ _
        decide
      · apply List.IsChain.cons_cons
        · show _ ∈ successors _ _
          decide
        · exact .singleton _
  apply not_accepted_of_capability_cycle hcycle (fun operator => by simp)
  exact hremoved haccepted _

end Orcastork
