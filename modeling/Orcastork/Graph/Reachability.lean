import Orcastork.Graph.Declarations
import Orcastork.Library.Saturation

/-!
# Backward reachability

`backward_reachable` keeps the operators whose output is needed: those that produce a sink, and
those that produce an input (`depends_on`) of an operator that is kept. With them it keeps the
capabilities they require.
-/

namespace Orcastork

namespace Declarations

variable {P C O : Type} [DecidableEq P] [DecidableEq C] [DecidableEq O]
variable (declarations : Declarations P C O)

/-- The needed classes and the operators kept so far. -/
structure Backward (P O : Type) where
  needed : Finset P
  kept : Finset O

/-- The visit of an operator: kept once it produces a needed class, and its inputs needed. -/
def visitProducer (state : Backward P O) (operator : O) : Option (Backward P O) :=
  if operator ∈ state.kept then
    none
  else if ∃ need ∈ state.needed,
      declarations.satisfies (declarations.effectiveProduces operator) need = true then
    some ⟨state.needed ∪ declarations.dependsOn operator, insert operator state.kept⟩
  else
    none

/-- The visit of a capability: kept once a kept operator requires it, or a capability that was
kept at the start of the sweep. -/
def visitProvider (keptOperators : Finset O) (start kept : Finset C) (provider : C) :
    Option (Finset C) :=
  if provider ∈ kept then
    none
  else if (∃ requirer ∈ keptOperators, ∃ required ∈ declarations.requires requirer,
        declarations.capabilities.issubclass provider required = true)
      ∨ ∃ requirer ∈ start, ∃ required ∈ declarations.capabilityRequires requirer,
        declarations.capabilities.issubclass provider required = true then
    some (insert provider kept)
  else
    none

/-- The operators `backward_reachable` keeps, and what is needed then. -/
def keptOperators (operators : List O) (sinks : Finset P) : Backward P O :=
  saturate (fun _ => declarations.visitProducer) operators (enoughSweeps operators) ⟨sinks, ∅⟩

/-- `backward_reachable`: the operators that produce toward the sinks, and the capabilities they
require. -/
def backwardReachable (operators : List O) (capabilities : List C) (sinks : Finset P) :
    Finset O × Finset C :=
  let kept := (declarations.keptOperators operators sinks).kept
  (kept, saturate (declarations.visitProvider kept) capabilities (enoughSweeps capabilities) ∅)

variable {declarations}

omit [DecidableEq C] in
theorem visitProducer_eq_some {state state' : Backward P O} {operator : O}
    (h : declarations.visitProducer state operator = some state') :
  operator ∉ state.kept
    ∧ (∃ need ∈ state.needed,
        declarations.satisfies (declarations.effectiveProduces operator) need = true)
    ∧ state' = ⟨state.needed ∪ declarations.dependsOn operator, insert operator state.kept⟩
  := by
  rw [visitProducer] at h
  split at h
  · cases h
  · rename_i hnew
    split at h
    · rename_i hneeded
      cases h
      use hnew, hneeded
    · cases h

variable (declarations) in
omit [DecidableEq C] in
/-- The sinks and the inputs of kept operators are needed. -/
theorem needed_keptOperators (operators : List O) (sinks : Finset P) :
  sinks ⊆ (declarations.keptOperators operators sinks).needed
    ∧ ∀ operator ∈ (declarations.keptOperators operators sinks).kept,
        declarations.dependsOn operator ⊆ (declarations.keptOperators operators sinks).needed
  := by
  apply saturate_invariant (fun state : Backward P O => sinks ⊆ state.needed
    ∧ ∀ operator ∈ state.kept, declarations.dependsOn operator ⊆ state.needed)
  · rintro start state operator state' - ⟨hsinks, hinputs⟩ - hvisit
    obtain ⟨-, -, rfl⟩ := visitProducer_eq_some hvisit
    constructor
    · apply hsinks.trans Finset.subset_union_left
    · intro operator' hkept
      obtain rfl | hkept := Finset.mem_insert.mp hkept
      · apply Finset.subset_union_right
      · apply (hinputs operator' hkept).trans Finset.subset_union_left
  · constructor
    · apply Finset.Subset.refl
    · nofun

omit [DecidableEq C] in
/-- An operator that produces a needed class is kept. -/
theorem mem_keptOperators {operators : List O} {sinks : Finset P} {operator : O}
    (hmem : operator ∈ operators) {need : P}
    (hneed : need ∈ (declarations.keptOperators operators sinks).needed)
    (hproduces : declarations.satisfies (declarations.effectiveProduces operator) need = true) :
  operator ∈ (declarations.keptOperators operators sinks).kept
  := by
  have hcollecting : Collecting (fun _ => declarations.visitProducer) (id : O → O)
      Backward.kept := by
    intro start state operator state' hvisit
    obtain ⟨hnew, -, rfl⟩ := visitProducer_eq_some hvisit
    use hnew
    rfl
  have hnone := hcollecting.saturated operators (s := ⟨sinks, ∅⟩) rfl operator hmem
  change declarations.visitProducer (declarations.keptOperators operators sinks) operator = none
    at hnone
  by_contra hnew
  rw [visitProducer, if_neg hnew, if_pos ⟨need, hneed, hproduces⟩] at hnone
  cases hnone

end Declarations

end Orcastork
