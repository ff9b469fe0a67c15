import Mathlib.Data.Finset.Union
import Orcastork.Ids

/-!
# Declarations

Operators, capabilities and DataPoints are classes: what the graph and the scheduler read are
the sets the classes declare, and which class is a subclass of which. The classes themselves
are left open: `P`, `C` and `O` stand for the DataPoint, capability and operator classes of a
process, and `Declarations` for what they declare.
-/

namespace Orcastork

/-- Which class is a subclass of which. -/
structure Hierarchy (α : Type) where
  issubclass : α → α → Bool
  issubclass_refl : ∀ a, issubclass a a = true
  issubclass_trans : ∀ {a b c}, issubclass a b = true → issubclass b c = true →
    issubclass a c = true

/-- The hierarchy without subclasses. -/
def Hierarchy.flat (α : Type) [DecidableEq α] : Hierarchy α where
  issubclass := fun a b => decide (a = b)
  issubclass_refl := fun a => decide_eq_true rfl
  issubclass_trans := by
    intro a b c hab hbc
    rw [decide_eq_true_eq] at hab hbc ⊢
    apply hab.trans hbc

/-- What an `Aggregator` declares beside what every operator does. -/
structure AggregatorDeclaration (P : Type) where
  interimRefresh : Bool
  consumes : Finset P

/-- What the classes of a process declare. -/
structure Declarations (P C O : Type) where
  dataPoints : Hierarchy P
  /-- The abstract intermediates. -/
  abstractTypes : Finset P
  /-- The registered concrete leaves. -/
  registeredLeaves : List P
  capabilities : Hierarchy C
  capabilityId : C → CapabilityId
  capabilityDependsOn : C → Finset P
  capabilityRequires : C → Finset C
  operatorId : O → OperatorId
  dependsOn : O → Finset P
  uses : O → Finset P
  produces : O → Finset P
  requires : O → Finset C
  /-- Nothing for an operator that is no `Aggregator`. -/
  aggregator : O → Option (AggregatorDeclaration P)

namespace Declarations

variable {P C O : Type} (declarations : Declarations P C O)

/-- One of some classes is a subclass of `required`. -/
def satisfies (present : Finset P) (required : P) : Bool :=
  decide (∃ p ∈ present, declarations.dataPoints.issubclass p required = true)

/-- `subtypes_of`: the registered leaves below a class. -/
def subtypesOf (dataPointType : P) : List P :=
  declarations.registeredLeaves.filter
    (fun leaf => declarations.dataPoints.issubclass leaf dataPointType)

/-- `effective_produces`: what an operator declares, an abstract class replaced by the leaves
below it. -/
def effectiveProduces [DecidableEq P] (operator : O) : Finset P :=
  (declarations.produces operator).biUnion (fun declared =>
    if declared ∈ declarations.abstractTypes then
      (declarations.subtypesOf declared).toFinset
    else
      {declared})

/-- An operator is an `Aggregator`. -/
def isAggregator (operator : O) : Bool := (declarations.aggregator operator).isSome

/-- The operators of the gather phase: all but the aggregators that are not refreshed in the
interim. -/
def gathering (operators : List O) : List O :=
  operators.filter (fun operator =>
    ((declarations.aggregator operator).map AggregatorDeclaration.interimRefresh).getD true)

/-- The aggregators. -/
def aggregators (operators : List O) : List O :=
  operators.filter declarations.isAggregator

theorem satisfies_iff {declarations : Declarations P C O} {present : Finset P} {required : P} :
  declarations.satisfies present required = true
    ↔ ∃ p ∈ present, declarations.dataPoints.issubclass p required = true
  := by
  rw [satisfies, decide_eq_true_eq]

/-- More classes satisfy more. -/
theorem satisfies_mono {declarations : Declarations P C O} {present present' : Finset P}
    {required : P} (hsub : present ⊆ present')
    (h : declarations.satisfies present required = true) :
  declarations.satisfies present' required = true
  := by
  rw [satisfies_iff] at h ⊢
  obtain ⟨p, hp, hbelow⟩ := h
  use p, hsub hp

end Declarations

end Orcastork
