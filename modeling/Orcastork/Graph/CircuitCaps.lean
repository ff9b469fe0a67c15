import Orcastork.Graph.BoundedCycles
import Orcastork.Scheduling.Debounce

/-!
# The caps of the circuit breaker

`build_graph` as the map it returns, and the caps that the breaker of a run is made with: an
operator on a cycle has the cap that it declares, and no other operator has one
(`get?_circuitCaps`). A breaker that has recorded nothing is tripped for an operator on a cycle whose
cap leaves it no run (`isTripped_circuitCaps`).
-/

namespace Orcastork

open Components

namespace Declarations

variable {P C O : Type} [DecidableEq P] [DecidableEq C] [DecidableEq O]
variable (declarations : Declarations P C O)

/-! ### The graph as a map -/

/-- The nodes of `build_graph`, in the order in which they become keys. -/
def graphNodes (operators : List O) (capabilities : List C) : List (Node C O) :=
  operators.map Node.operator ++ capabilities.map Node.capability

/-- What a node feeds, among the nodes. -/
def consumersOf (nodes : List (Node C O)) (node : Node C O) : List (Node C O) :=
  (nodes.filter (fun consumer => declarations.provides node consumer)).dedup

/-- `build_graph`, as the map it returns. -/
def adjacency (operators : List O) (capabilities : List C) :
    Dict (Node C O) (List (Node C O)) :=
  let nodes := graphNodes operators capabilities
  nodes.foldl (fun edges node => edges.set node (declarations.consumersOf nodes node)) .empty

variable {declarations} {operators : List O} {capabilities : List C}

/-- The map has the edges of the graph. -/
theorem edge_adjacency_iff {node successor : Node C O} :
  Edge (declarations.adjacency operators capabilities) node successor
    ↔ (node, successor) ∈ (declarations.buildGraph operators capabilities).edges
  := by
  have hnodes : ∀ other, other ∈ (declarations.buildGraph operators capabilities).nodes
      ↔ other ∈ graphNodes operators capabilities := by
    intro other
    rw [buildGraph, List.mem_toFinset, graphNodes]
  rw [mem_edges_buildGraph, hnodes, hnodes, Edge, successors, adjacency, Dict.get?_foldl_set]
  split
  · rename_i hmem
    rw [Option.getD_some, consumersOf, List.mem_dedup, List.mem_filter]
    simp only [hmem, true_and]
  · rename_i hmem
    simp [hmem]

end Declarations

/-! ### Caps -/

section

variable {C O : Type} [DecidableEq C] [DecidableEq O]
variable (operatorId : O → OperatorId) (maxCycles : O → Option ℤ)

/-- An operator on a cycle gets the cap it declares. -/
def setCap (caps : Dict OperatorId ℤ) (operator : O) : Dict OperatorId ℤ :=
  match maxCycles operator with
  | none => caps
  | some cap => caps.set (operatorId operator) cap

/-- The operators on a cycle, in the order of the operators. -/
def capCycle (operators : List O) (caps : Dict OperatorId ℤ) (cycle : Finset (Node C O)) :
    Dict OperatorId ℤ :=
  (operators.filter (fun operator => Node.operator operator ∈ cycle)).foldl
    (setCap operatorId maxCycles) caps

/-- `_build_circuit_breaker`: the caps. -/
def circuitCaps (operators : List O) (edges : Dict (Node C O) (List (Node C O))) :
    Dict OperatorId ℤ :=
  match findCycles edges with
  | none => .empty
  | some cycles => cycles.foldl (capCycle operatorId maxCycles operators) .empty

variable {operatorId maxCycles}

omit [DecidableEq C] in
/-- The caps of some operators. -/
theorem get?_foldl_setCap (hinjective : Function.Injective operatorId) (operators : List O)
    (caps : Dict OperatorId ℤ) (operator : O) :
  (operators.foldl (setCap operatorId maxCycles) caps).get? (operatorId operator)
    = if operator ∈ operators ∧ (maxCycles operator).isSome then maxCycles operator
      else caps.get? (operatorId operator)
  := by
  induction operators generalizing caps with
  | nil => simp
  | cons other operators ih =>
      rw [List.foldl_cons, ih]
      by_cases hmem : operator ∈ operators ∧ (maxCycles operator).isSome
      · rw [if_pos hmem, if_pos ⟨List.mem_cons_of_mem _ hmem.1, hmem.2⟩]
      · rw [if_neg hmem, setCap]
        by_cases hsame : operator = other
        · subst hsame
          cases hcap : maxCycles operator with
          | none => simp
          | some cap => simp
        · have hne : operatorId other ≠ operatorId operator := by
            intro hid
            apply hsame (hinjective hid).symm
          rw [if_neg (by rw [List.mem_cons, or_iff_right hsame]; apply hmem)]
          split
          · rfl
          · rw [Dict.get?_set_of_ne _ hne]

/-- An operator has the cap it declares if it is on one of some cycles. -/
theorem get?_foldl_capCycle (hinjective : Function.Injective operatorId) (operators : List O)
    (cycles : List (Finset (Node C O))) (caps : Dict OperatorId ℤ) (operator : O) :
  (cycles.foldl (capCycle operatorId maxCycles operators) caps).get? (operatorId operator)
    = if operator ∈ operators ∧ (∃ cycle ∈ cycles, Node.operator operator ∈ cycle)
          ∧ (maxCycles operator).isSome then maxCycles operator
      else caps.get? (operatorId operator)
  := by
  induction cycles generalizing caps with
  | nil => simp
  | cons cycle cycles ih =>
      rw [List.foldl_cons, ih, capCycle, get?_foldl_setCap hinjective]
      by_cases hrest : operator ∈ operators ∧ (∃ cycle ∈ cycles, Node.operator operator ∈ cycle)
          ∧ (maxCycles operator).isSome
      · obtain ⟨hmem, ⟨other, hother, hon⟩, hcap⟩ := id hrest
        rw [if_pos hrest, if_pos ⟨hmem, ⟨other, List.mem_cons_of_mem _ hother, hon⟩, hcap⟩]
      · rw [if_neg hrest]
        apply if_congr _ rfl rfl
        rw [List.mem_filter, decide_eq_true_eq]
        constructor
        · rintro ⟨⟨hmem, hon⟩, hcap⟩
          use hmem, ⟨cycle, List.mem_cons_self, hon⟩
        · rintro ⟨hmem, ⟨other, hother, hon⟩, hcap⟩
          rcases List.mem_cons.mp hother with rfl | hother
          · use ⟨hmem, hon⟩
          · cases hrest ⟨hmem, ⟨other, hother, hon⟩, hcap⟩

/-- A node is on a cycle if it comes back to itself. -/
theorem mem_findCycles_iff {edges : Dict (Node C O) (List (Node C O))}
    {cycles : List (Finset (Node C O))} (hcycles : findCycles edges = some cycles)
    {node : Node C O} :
  (∃ cycle ∈ cycles, node ∈ cycle) ↔ Relation.TransGen (Edge edges) node node
  := by
  obtain ⟨found, hfound, -, hmem⟩ := findCycles_exact edges
  obtain rfl := Option.some.inj (hfound.symm.trans hcycles)
  constructor
  · rintro ⟨cycle, hcycle, hon⟩
    obtain ⟨hcomponent, hcyclic⟩ := (hmem cycle).mp hcycle
    apply hcomponent.transGen hcyclic hon
  · intro hreturns
    obtain ⟨rest, hcycle⟩ := exists_isCycle hreturns
    obtain ⟨component, hcomponent, hcyclic, hon⟩ := exists_component_of_isCycle hcycle
    use component, (hmem component).mpr ⟨hcomponent, hcyclic⟩
    apply hon node List.mem_cons_self

/-- The operators on a cycle have the caps they declare, and no others have one. -/
theorem get?_circuitCaps (hinjective : Function.Injective operatorId) (operators : List O)
    (edges : Dict (Node C O) (List (Node C O))) (operator : O) (cap : ℤ) :
  (circuitCaps operatorId maxCycles operators edges).get? (operatorId operator) = some cap
    ↔ operator ∈ operators
      ∧ Relation.TransGen (Edge edges) (Node.operator operator) (Node.operator operator)
      ∧ maxCycles operator = some cap
  := by
  obtain ⟨cycles, hcycles, -⟩ := findCycles_exact edges
  rw [circuitCaps, hcycles]
  dsimp only
  rw [get?_foldl_capCycle hinjective]
  have hon := @mem_findCycles_iff C O _ _ edges cycles hcycles (.operator operator)
  split
  · rename_i hcapped
    constructor
    · intro hcap
      use hcapped.1, hon.mp hcapped.2.1
    · intro h
      apply h.2.2
  · rename_i huncapped
    constructor
    · intro hcap
      cases hcap
    · rintro ⟨hmem, hreturns, hcap⟩
      cases huncapped ⟨hmem, hon.mpr hreturns, by rw [hcap]; rfl⟩

/-- A breaker that has recorded nothing is tripped for an operator whose cap leaves it no run. -/
theorem isTripped_circuitCaps (hinjective : Function.Injective operatorId) (operators : List O)
    (edges : Dict (Node C O) (List (Node C O))) (operator : O) :
  CircuitBreaker.isTripped ⟨circuitCaps operatorId maxCycles operators edges, .empty⟩
      (operatorId operator) = true
    ↔ operator ∈ operators
      ∧ Relation.TransGen (Edge edges) (Node.operator operator) (Node.operator operator)
      ∧ ∃ cap ≤ 0, maxCycles operator = some cap
  := by
  rw [CircuitBreaker.isTripped]
  dsimp only
  split
  · rename_i hnone
    constructor
    · intros
      contradiction
    · rintro ⟨hmem, hreturns, cap, -, hcap⟩
      have hsome := (get?_circuitCaps hinjective operators edges operator cap).mpr
        ⟨hmem, hreturns, hcap⟩
      cases hnone.symm.trans hsome
  · rename_i cap hsome
    obtain ⟨hmem, hreturns, hcap⟩ :=
      (get?_circuitCaps hinjective operators edges operator cap).mp hsome
    rw [decide_eq_true_eq]
    constructor
    · intro hle
      use hmem, hreturns, cap, hle
    · rintro ⟨-, -, cap', hle, hcap'⟩
      obtain rfl := Option.some.inj (hcap.symm.trans hcap')
      apply hle

end

end Orcastork
