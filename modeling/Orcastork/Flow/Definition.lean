import Mathlib.Data.Multiset.Sort
import Mathlib.Data.String.Basic
import Orcastork.Graph.Builder
import Orcastork.Library.Paging
import Orcastork.Scheduling.Readiness

/-!
# Flow definitions

A `FlowDefinition` names a flow once: its operators, its capabilities and its completion
condition. Its `fingerprint` is the digest of a text that lists them by name, and a resume with
another fingerprint is flagged as drift.

A deploy can change what a class declares but not what it is called, so the names and the
class hierarchies are common to the flows of a process (`Classes`), and what the operators and
the capabilities declare is part of the flow.
-/

namespace Orcastork

/-- `RerunOn`. -/
inductive RerunOn where
  | addedOrUpdated
  | addedOnly
  deriving DecidableEq

/-- The value of a mode. -/
def RerunOn.value : RerunOn → String
  | .addedOrUpdated => "added_or_updated"
  | .addedOnly => "added_only"

/-- `OperatorPolicy`, as far as the fingerprint and the rerun triggers read it. -/
structure OperatorPolicy where
  rerunOnNewData : Bool
  rerunOn : RerunOn
  maxCycles : Option ℤ
  deriving DecidableEq

/-- The public `completes_when`: a DataPoint class, or a condition. -/
inductive CompletesWhen (P : Type) where
  | dataPointType (dataPointType : P)
  | condition (condition : CompletionCondition P)

/-- `normalize_completion`. -/
def normalizeCompletion {P : Type} (completesWhen : Option (CompletesWhen P)) :
    Option (CompletionCondition P) :=
  completesWhen.map (fun item =>
    match item with
    | .dataPointType dataPointType => .typePresent dataPointType
    | .condition condition => condition)

/-- The classes of a process: what they are called, and which is below which. -/
structure Classes (P C O : Type) where
  dataPoints : Hierarchy P
  abstractTypes : Finset P
  registeredLeaves : List P
  qualname : P → String
  capabilities : Hierarchy C
  /-- An abstract intermediate has no `capability_id`. -/
  hasCapabilityId : C → Bool
  capabilityId : C → CapabilityId
  capabilityQualname : C → String
  operatorId : O → OperatorId
  /-- The registry refuses a second class under an id. -/
  operatorId_injective : Function.Injective operatorId

/-- `FlowDefinition`, with what its classes declare. -/
structure FlowDefinition (P C O : Type) where
  operators : List O
  capabilities : List C
  completesWhen : Option (CompletesWhen P)
  dependsOn : O → Finset P
  uses : O → Finset P
  produces : O → Finset P
  requires : O → Finset C
  policy : O → OperatorPolicy
  aggregator : O → Option (AggregatorDeclaration P)
  capabilityDependsOn : C → Finset P
  capabilityRequires : C → Finset C

/-- What `describe_condition` says of a condition without a class of the AST: what it says of
itself, or the name of its class, which is one for all its instances. -/
def CustomCondition.text {P : Type} (condition : CustomCondition P) : String :=
  condition.describe.getD (condition.moduleName ++ "." ++ condition.qualname)

namespace Classes

variable {P C O : Type} (classes : Classes P C O)

/-! ### The text of a flow -/

/-- `_data_point_names`. -/
def dataPointNames (types : Finset P) : String :=
  ",".intercalate ((types.val.map classes.qualname).sort (· ≤ ·))

/-- `_capability_name`. -/
def capabilityName (capability : C) : String :=
  if classes.hasCapabilityId capability then
    classes.capabilityId capability
  else
    classes.capabilityQualname capability

/-- `_capability_names`. -/
def capabilityNames (types : Finset C) : String :=
  ",".intercalate ((types.val.map classes.capabilityName).sort (· ≤ ·))

mutual

/-- `describe_condition`. -/
def describeCondition : CompletionCondition P → String
  | .typePresent dataPointType => "TypePresent(" ++ classes.qualname dataPointType ++ ")"
  | .allOf children => "AllOf(" ++ ", ".intercalate (describeAll children) ++ ")"
  | .anyOf children => "AnyOf(" ++ ", ".intercalate (describeAll children) ++ ")"
  | .custom condition => condition.text

def describeAll : List (CompletionCondition P) → List String
  | [] => []
  | child :: children => describeCondition child :: describeAll children

end

end Classes

/-- A boolean as an f-string shows it. -/
def pyBool (value : Bool) : String := if value then "True" else "False"

/-- An optional number as an f-string shows it. -/
def pyOptionalInt : Option ℤ → String
  | none => "None"
  | some number => toString number

namespace FlowDefinition

variable {P C O : Type} (classes : Classes P C O) (flow : FlowDefinition P C O)

/-- The line of an operator. -/
def operatorLine (operator : O) : String :=
  "operator " ++ classes.operatorId operator
    ++ " depends_on=[" ++ classes.dataPointNames (flow.dependsOn operator) ++ "]"
    ++ " produces=[" ++ classes.dataPointNames (flow.produces operator) ++ "]"
    ++ " requires=[" ++ classes.capabilityNames (flow.requires operator) ++ "]"
    ++ " rerun_on_new_data=" ++ pyBool (flow.policy operator).rerunOnNewData
    ++ " rerun_on=" ++ (flow.policy operator).rerunOn.value
    ++ " max_cycles=" ++ pyOptionalInt (flow.policy operator).maxCycles

/-- The line of a capability. -/
def capabilityLine (capability : C) : String :=
  "capability " ++ classes.capabilityName capability
    ++ " depends_on=[" ++ classes.dataPointNames (flow.capabilityDependsOn capability) ++ "]"
    ++ " requires=[" ++ classes.capabilityNames (flow.capabilityRequires capability) ++ "]"

/-- The line of the completion condition. -/
def completionLine : String :=
  "completes_when " ++ match normalizeCompletion flow.completesWhen with
    | none => "None"
    | some condition => classes.describeCondition condition

/-- The lines the fingerprint digests, each section in the order of its names. -/
def lines : List String :=
  (Paging.inOrder classes.operatorId flow.operators).map (flow.operatorLine classes)
    ++ (Paging.inOrder classes.capabilityName flow.capabilities).map (flow.capabilityLine classes)
    ++ [flow.completionLine classes]

/-- `fingerprint`. -/
def fingerprint (sha256 : String → String) : String :=
  sha256 ("\n".intercalate (flow.lines classes))

/-! ### What the scheduler reads -/

/-- The declarations of a flow and the classes it is about. -/
def declarations : Declarations P C O where
  dataPoints := classes.dataPoints
  abstractTypes := classes.abstractTypes
  registeredLeaves := classes.registeredLeaves
  capabilities := classes.capabilities
  capabilityId := classes.capabilityId
  capabilityDependsOn := flow.capabilityDependsOn
  capabilityRequires := flow.capabilityRequires
  operatorId := classes.operatorId
  dependsOn := flow.dependsOn
  uses := flow.uses
  produces := flow.produces
  requires := flow.requires
  aggregator := flow.aggregator

/-- What happened since an operator last ran, by the classes of the DataPoints. -/
structure NewData (P : Type) where
  added : Finset P
  updated : Finset P
  newlyAvailableCaps : Finset CapabilityId

variable [DecidableEq P]

/-- `_has_relevant_new_data`. -/
def hasRelevantNewData (operator : O) (delta : NewData P) : Bool :=
  if delta.newlyAvailableCaps ≠ ∅ then
    true
  else
    let newData := match (flow.policy operator).rerunOn with
      | .addedOnly => delta.added
      | .addedOrUpdated => delta.added ∪ delta.updated
    let triggers := flow.dependsOn operator ∪ flow.uses operator
    decide (∃ dataPoint ∈ newData, ∃ trigger ∈ triggers,
      classes.dataPoints.issubclass dataPoint trigger = true)

/-- `rerun_eligible`: new data makes a completed operator run again. -/
def rerunEligible (operator : O) (delta : NewData P) : Bool :=
  (flow.policy operator).rerunOnNewData && flow.hasRelevantNewData classes operator delta

/-- What the completion condition says of the classes that are present, if there is one. -/
def isSatisfied (present : Finset P) : Option Bool :=
  (normalizeCompletion flow.completesWhen).map (fun condition =>
    condition.isSatisfied (flow.declarations classes) present)

end FlowDefinition

end Orcastork
