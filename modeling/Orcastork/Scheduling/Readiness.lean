import Mathlib.Data.Finset.Option
import Orcastork.Graph.Declarations
import Orcastork.Library.Dict
import Orcastork.Library.Saturation

/-!
# Readiness, availability and completion

What decides whether an operator can run, a capability is available and a session is complete,
given the classes of the DataPoints that are present. All three are monotone: what more
classes take away is nothing.
-/

namespace Orcastork

namespace Declarations

variable {P C O : Type} (declarations : Declarations P C O)

/-! ### Availability of capabilities -/

/-- The capabilities of a session by id, a later one in the place of an earlier one. -/
def registered (capabilities : List C) : Dict CapabilityId C :=
  capabilities.foldl (fun dict capability =>
    dict.set (declarations.capabilityId capability) capability) .empty

/-- `_deps_present`. -/
def depsPresent (dependsOn present : Finset P) : Bool :=
  decide (∀ required ∈ dependsOn, declarations.satisfies present required = true)

variable [DecidableEq C]

/-- The capability classes of some ids. -/
def typesOf (registered : Dict CapabilityId C) (available : Finset CapabilityId) : Finset C :=
  available.biUnion (fun capabilityId => (registered.get? capabilityId).toFinset)

/-- `_requires_available`. -/
def requiresAvailable (requires : Finset C) (available : Finset CapabilityId)
    (registered : Dict CapabilityId C) : Bool :=
  decide (∀ required ∈ requires, ∃ capability ∈ typesOf registered available,
    declarations.capabilities.issubclass capability required = true)

/-- The visit of a capability in `compute_available`. -/
def visitCapability (registered : Dict CapabilityId C) (permitted : Finset CapabilityId)
    (present : Finset P) (available : Finset CapabilityId) (item : CapabilityId × C) :
    Option (Finset CapabilityId) :=
  if item.1 ∈ available ∨ item.1 ∉ permitted then
    none
  else if ¬declarations.depsPresent (declarations.capabilityDependsOn item.2) present then
    none
  else if ¬declarations.requiresAvailable (declarations.capabilityRequires item.2) available
      registered then
    none
  else
    some (insert item.1 available)

/-- `compute_available`: the available capabilities, base before layer until stable. -/
def computeAvailable (registered : Dict CapabilityId C) (permitted : Finset CapabilityId)
    (present : Finset P) : Finset CapabilityId :=
  saturate (fun _ => declarations.visitCapability registered permitted present)
    registered.items (enoughSweeps registered.items) ∅

/-- The classes of the available capabilities. -/
def availableTypes (registered : Dict CapabilityId C) (permitted : Finset CapabilityId)
    (present : Finset P) : Finset C :=
  typesOf registered (declarations.computeAvailable registered permitted present)

variable {declarations}
variable {registered : Dict CapabilityId C} {permitted : Finset CapabilityId}
variable {present : Finset P}

omit [DecidableEq C] in
theorem depsPresent_iff {dependsOn : Finset P} :
  declarations.depsPresent dependsOn present = true
    ↔ ∀ required ∈ dependsOn, declarations.satisfies present required = true
  := by
  rw [depsPresent, decide_eq_true_eq]

theorem requiresAvailable_iff {requires : Finset C} {available : Finset CapabilityId} :
  declarations.requiresAvailable requires available registered = true
    ↔ ∀ required ∈ requires, ∃ capability ∈ typesOf registered available,
        declarations.capabilities.issubclass capability required = true
  := by
  rw [requiresAvailable, decide_eq_true_eq]

theorem mem_typesOf_iff {available : Finset CapabilityId} {capability : C} :
  capability ∈ typesOf registered available
    ↔ ∃ capabilityId ∈ available, registered.get? capabilityId = some capability
  := by
  simp only [typesOf, Finset.mem_biUnion, Option.mem_toFinset, Option.mem_def]

/-- A visit adds a permitted capability whose inputs are present and whose bases are
available. -/
theorem visitCapability_eq_some {available available' : Finset CapabilityId}
    {item : CapabilityId × C}
    (h : declarations.visitCapability registered permitted present available item
      = some available') :
  item.1 ∉ available ∧ item.1 ∈ permitted
    ∧ declarations.depsPresent (declarations.capabilityDependsOn item.2) present = true
    ∧ declarations.requiresAvailable (declarations.capabilityRequires item.2) available registered
        = true
    ∧ available' = insert item.1 available
  := by
  rw [visitCapability] at h
  split at h
  · cases h
  · rename_i hnew
    rw [not_or, not_not] at hnew
    split at h
    · cases h
    · rename_i hdeps
      rw [not_not] at hdeps
      split at h
      · cases h
      · rename_i hrequires
        rw [not_not] at hrequires
        cases h
        use hnew.1, hnew.2, hdeps, hrequires

/-- What holds of every capability whose inputs are present and whose bases are available and
have it, holds of every available capability. -/
theorem computeAvailable_induction (holds : CapabilityId → C → Prop)
    (hstep : ∀ capabilityId capability, registered.get? capabilityId = some capability →
      capabilityId ∈ permitted →
      declarations.depsPresent (declarations.capabilityDependsOn capability) present = true →
      (∀ required ∈ declarations.capabilityRequires capability, ∃ baseId base,
        registered.get? baseId = some base ∧ holds baseId base
          ∧ declarations.capabilities.issubclass base required = true) →
      holds capabilityId capability)
    {capabilityId : CapabilityId}
    (hmem : capabilityId ∈ declarations.computeAvailable registered permitted present) :
  ∃ capability, registered.get? capabilityId = some capability ∧ holds capabilityId capability
  := by
  have hall : ∀ id ∈ declarations.computeAvailable registered permitted present,
      ∃ capability, registered.get? id = some capability ∧ holds id capability := by
    apply saturate_invariant (fun available => ∀ id ∈ available,
      ∃ capability, registered.get? id = some capability ∧ holds id capability)
    · rintro start available ⟨id, capability⟩ available' - havailable hitem hvisit
      obtain ⟨-, hpermitted, hdeps, hrequires, rfl⟩ := visitCapability_eq_some hvisit
      have hget : registered.get? id = some capability := Dict.get?_eq_some_iff.mpr hitem
      intro id' hid'
      obtain rfl | hid' := Finset.mem_insert.mp hid'
      · use capability, hget
        apply hstep id' capability hget hpermitted hdeps
        intro required hrequired
        obtain ⟨base, hbase, hbelow⟩ := requiresAvailable_iff.mp hrequires required hrequired
        obtain ⟨baseId, hbaseId, hbaseGet⟩ := mem_typesOf_iff.mp hbase
        obtain ⟨base', hbaseGet', hholds⟩ := havailable baseId hbaseId
        rw [hbaseGet] at hbaseGet'
        obtain rfl := Option.some.inj hbaseGet'
        use baseId, base, hbaseGet, hholds
      · apply havailable id' hid'
    · nofun
  apply hall capabilityId hmem

/-- The loop of `compute_available` collects the capabilities. -/
theorem collecting_visitCapability :
  Collecting (fun _ => declarations.visitCapability registered permitted present)
    (Prod.fst : CapabilityId × C → CapabilityId) id
  := by
  intro start available item available' hvisit
  obtain ⟨hnew, -, -, -, rfl⟩ := visitCapability_eq_some hvisit
  use hnew
  rfl

/-- A permitted capability whose inputs are present and whose bases are available is
available. -/
theorem mem_computeAvailable {capabilityId : CapabilityId} {capability : C}
    (hget : registered.get? capabilityId = some capability)
    (hpermitted : capabilityId ∈ permitted)
    (hdeps : declarations.depsPresent (declarations.capabilityDependsOn capability) present = true)
    (hrequires : declarations.requiresAvailable (declarations.capabilityRequires capability)
      (declarations.computeAvailable registered permitted present) registered = true) :
  capabilityId ∈ declarations.computeAvailable registered permitted present
  := by
  have hitem : (capabilityId, capability) ∈ registered.items := Dict.get?_eq_some_iff.mp hget
  have hnone := @collecting_visitCapability _ _ _ declarations _ registered permitted present
    |>.saturated registered.items rfl _ hitem
  change declarations.visitCapability registered permitted present
    (declarations.computeAvailable registered permitted present) (capabilityId, capability)
      = none at hnone
  by_contra hnew
  rw [visitCapability, if_neg (by simp [hnew, hpermitted]), if_neg (by simp [hdeps]),
    if_neg (by simp [hrequires])] at hnone
  cases hnone

/-- The inputs of an available capability are present. -/
theorem depsPresent_of_mem_computeAvailable {capabilityId : CapabilityId} {capability : C}
    (hmem : capabilityId ∈ declarations.computeAvailable registered permitted present)
    (hget : registered.get? capabilityId = some capability) :
  declarations.depsPresent (declarations.capabilityDependsOn capability) present = true
  := by
  have hstep : ∀ id capability, registered.get? id = some capability → id ∈ permitted →
      declarations.depsPresent (declarations.capabilityDependsOn capability) present = true →
      (∀ required ∈ declarations.capabilityRequires capability, ∃ baseId base,
        registered.get? baseId = some base
          ∧ declarations.depsPresent (declarations.capabilityDependsOn base) present = true
          ∧ declarations.capabilities.issubclass base required = true) →
      declarations.depsPresent (declarations.capabilityDependsOn capability) present = true := by
    intro id capability _ _ hdeps _
    apply hdeps
  obtain ⟨capability', hget', hdeps⟩ := computeAvailable_induction (fun _ capability =>
    declarations.depsPresent (declarations.capabilityDependsOn capability) present = true)
    hstep hmem
  rw [hget] at hget'
  obtain rfl := Option.some.inj hget'
  apply hdeps

/-- More classes make more capabilities available. -/
theorem computeAvailable_mono {present' : Finset P} (hsub : present ⊆ present')
    {capabilityId : CapabilityId}
    (h : capabilityId ∈ declarations.computeAvailable registered permitted present) :
  capabilityId ∈ declarations.computeAvailable registered permitted present'
  := by
  have hstep : ∀ id capability, registered.get? id = some capability → id ∈ permitted →
      declarations.depsPresent (declarations.capabilityDependsOn capability) present = true →
      (∀ required ∈ declarations.capabilityRequires capability, ∃ baseId base,
        registered.get? baseId = some base
          ∧ baseId ∈ declarations.computeAvailable registered permitted present'
          ∧ declarations.capabilities.issubclass base required = true) →
      id ∈ declarations.computeAvailable registered permitted present' := by
    intro id capability hget hpermitted hdeps hbases
    apply mem_computeAvailable hget hpermitted
    · rw [depsPresent_iff] at hdeps ⊢
      intro required hrequired
      apply satisfies_mono hsub (hdeps required hrequired)
    · rw [requiresAvailable_iff]
      intro required hrequired
      obtain ⟨baseId, base, hbaseGet, hbase, hbelow⟩ := hbases required hrequired
      use base, mem_typesOf_iff.mpr ⟨baseId, hbase, hbaseGet⟩
  obtain ⟨-, -, hmem⟩ := computeAvailable_induction (fun id _ =>
    id ∈ declarations.computeAvailable registered permitted present') hstep h
  apply hmem

/-- A class of an available capability is one of a registered capability that is available. -/
theorem mem_availableTypes_iff {capability : C} :
  capability ∈ declarations.availableTypes registered permitted present
    ↔ ∃ capabilityId ∈ declarations.computeAvailable registered permitted present,
        registered.get? capabilityId = some capability
  := by
  rw [availableTypes, mem_typesOf_iff]

/-- More classes make more capability classes available. -/
theorem availableTypes_mono {present' : Finset P} (hsub : present ⊆ present') :
  declarations.availableTypes registered permitted present
    ⊆ declarations.availableTypes registered permitted present'
  := by
  intro capability h
  rw [mem_availableTypes_iff] at h ⊢
  obtain ⟨capabilityId, hmem, hget⟩ := h
  use capabilityId, computeAvailable_mono hsub hmem

end Declarations

/-! ### Readiness of operators -/

/-- The declared inputs that keep an operator from running. The source sorts them by name. -/
structure ReadinessGap (P C : Type) where
  missingDataPoints : Finset P
  missingCapabilities : Finset C

/-- `ReadinessGap.is_ready`. -/
def ReadinessGap.isReady {P C : Type} (gap : ReadinessGap P C) : Bool :=
  decide (gap.missingDataPoints.card = 0 ∧ gap.missingCapabilities.card = 0)

namespace Declarations

variable {P C O : Type} (declarations : Declarations P C O)

/-- `readiness_gap`. -/
def readinessGap (operator : O) (present : Finset P) (available : Finset C) :
    ReadinessGap P C where
  missingDataPoints := (declarations.dependsOn operator).filter (fun required =>
    ¬declarations.satisfies present required = true)
  missingCapabilities := (declarations.requires operator).filter (fun required =>
    ¬∃ capability ∈ available, declarations.capabilities.issubclass capability required = true)

/-- `is_ready`. -/
def isReady (operator : O) (present : Finset P) (available : Finset C) : Bool :=
  (declarations.readinessGap operator present available).isReady

variable {declarations}

/-- An operator is ready when its inputs are present and its capabilities are available. -/
theorem isReady_iff {operator : O} {present : Finset P} {available : Finset C} :
  declarations.isReady operator present available = true
    ↔ (∀ required ∈ declarations.dependsOn operator,
          declarations.satisfies present required = true)
      ∧ ∀ required ∈ declarations.requires operator, ∃ capability ∈ available,
          declarations.capabilities.issubclass capability required = true
  := by
  rw [isReady, ReadinessGap.isReady, decide_eq_true_eq, readinessGap, Finset.card_eq_zero,
    Finset.card_eq_zero, Finset.filter_eq_empty_iff, Finset.filter_eq_empty_iff]
  simp only [not_not]

/-- More classes make more operators ready. -/
theorem isReady_mono {operator : O} {present present' : Finset P} {available available' : Finset C}
    (hpresent : present ⊆ present') (havailable : available ⊆ available')
    (h : declarations.isReady operator present available = true) :
  declarations.isReady operator present' available' = true
  := by
  rw [isReady_iff] at h ⊢
  obtain ⟨hinputs, hrequires⟩ := h
  constructor
  · intro required hrequired
    apply satisfies_mono hpresent (hinputs required hrequired)
  · intro required hrequired
    obtain ⟨capability, hcapability, hbelow⟩ := hrequires required hrequired
    use capability, havailable hcapability

end Declarations

/-! ### Completion conditions -/

/-- A condition of a class of its own: what it calls itself, and what it says of the classes that
are present. -/
structure CustomCondition (P : Type) where
  /-- What its `describe` returns, if its class has one. -/
  describe : Option String
  moduleName : String
  qualname : String
  isSatisfied : Finset P → Bool

/-- When a session is complete. -/
inductive CompletionCondition (P : Type) where
  | typePresent (dataPointType : P)
  | allOf (children : List (CompletionCondition P))
  | anyOf (children : List (CompletionCondition P))
  | custom (condition : CustomCondition P)

namespace CompletionCondition

variable {P C O : Type} (declarations : Declarations P C O) (present : Finset P)

mutual

/-- `is_satisfied`. -/
def isSatisfied : CompletionCondition P → Bool
  | .typePresent dataPointType => declarations.satisfies present dataPointType
  | .allOf children => allSatisfied children
  | .anyOf children => anySatisfied children
  | .custom condition => condition.isSatisfied present

def allSatisfied : List (CompletionCondition P) → Bool
  | [] => true
  | child :: children => isSatisfied child && allSatisfied children

def anySatisfied : List (CompletionCondition P) → Bool
  | [] => false
  | child :: children => isSatisfied child || anySatisfied children

end

variable [DecidableEq P]

mutual

/-- `referenced_types`: the classes a condition keys on, or nothing if it cannot be looked
into. -/
def referencedTypes : CompletionCondition P → Option (Finset P)
  | .typePresent dataPointType => some {dataPointType}
  | .allOf children => referencedTypesOfAll children
  | .anyOf children => referencedTypesOfAll children
  | .custom _ => none

def referencedTypesOfAll : List (CompletionCondition P) → Option (Finset P)
  | [] => some ∅
  | child :: children =>
    match referencedTypes child, referencedTypesOfAll children with
    | some types, some present => some (types ∪ present)
    | _, _ => none

end

variable {declarations} {present} {present' : Finset P}

mutual

/-- A condition that can be looked into says the same of classes that satisfy the same of those
it keys on. -/
theorem isSatisfied_congr : ∀ {condition : CompletionCondition P} {types : Finset P},
  condition.referencedTypes = some types →
  (∀ t ∈ types, declarations.satisfies present t = declarations.satisfies present' t) →
  condition.isSatisfied declarations present = condition.isSatisfied declarations present'
  | .typePresent dataPointType, types, htypes, h => by
      rw [referencedTypes] at htypes
      obtain rfl := Option.some.inj htypes
      rw [isSatisfied, isSatisfied]
      apply h dataPointType (Finset.mem_singleton_self _)
  | .allOf children, types, htypes, h => by
      rw [referencedTypes] at htypes
      rw [isSatisfied, isSatisfied]
      apply (satisfied_congr htypes h).1
  | .anyOf children, types, htypes, h => by
      rw [referencedTypes] at htypes
      rw [isSatisfied, isSatisfied]
      apply (satisfied_congr htypes h).2
  | .custom _, types, htypes, h => by
      rw [referencedTypes] at htypes
      cases htypes

theorem satisfied_congr : ∀ {children : List (CompletionCondition P)} {types : Finset P},
  referencedTypesOfAll children = some types →
  (∀ t ∈ types, declarations.satisfies present t = declarations.satisfies present' t) →
  allSatisfied declarations present children = allSatisfied declarations present' children
    ∧ anySatisfied declarations present children = anySatisfied declarations present' children
  | [], types, htypes, h => by
      rw [allSatisfied, allSatisfied, anySatisfied, anySatisfied]
      constructor
      · rfl
      · rfl
  | child :: children, types, htypes, h => by
      rw [referencedTypesOfAll] at htypes
      split at htypes
      · rename_i types₁ types₂ hchild hchildren
        obtain rfl := Option.some.inj htypes
        have hsame := isSatisfied_congr hchild (by
          intro t ht
          apply h t (Finset.mem_union_left _ ht))
        obtain ⟨hall, hany⟩ := satisfied_congr hchildren (by
          intro t ht
          apply h t (Finset.mem_union_right _ ht))
        rw [allSatisfied, allSatisfied, anySatisfied, anySatisfied, hsame, hall, hany]
        constructor
        · rfl
        · rfl
      · cases htypes

end

end CompletionCondition

end Orcastork
