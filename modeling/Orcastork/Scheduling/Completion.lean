import Orcastork.Adapters.Memory.Store
import Orcastork.Scheduling.Readiness

/-!
# Completion conditions are presence conditions

What a condition says of a view is what it says of the classes of the DataPoints in it. A
condition without an opaque node is read off the classes it keys on: it depends on nothing but
which of them have an instance, and what DataPoints are added cannot take it away.
-/

namespace Orcastork

/-! ### Conditions over a view -/

section Views

variable {P C O : Type} (declarations : Declarations P C O) (leafClass : DataPointType → P)

/-- `of_type`: the DataPoints of a view that are instances of a class. -/
def DataPointView.ofType (view : DataPointView) (dataPointType : P) : DataPointView :=
  view.filter (fun dataPoint =>
    declarations.dataPoints.issubclass (leafClass dataPoint.type) dataPointType)

/-- A class has an instance in a view. -/
def DataPointView.HasInstance (view : DataPointView) (dataPointType : P) : Prop :=
  DataPointView.ofType declarations leafClass view dataPointType ≠ []

variable [DecidableEq P]

/-- The classes of the DataPoints of a view. -/
def DataPointView.types (view : DataPointView) : Finset P :=
  (view.map (fun dataPoint => leafClass dataPoint.type)).toFinset

/-- `is_satisfied` on a view. -/
def CompletionCondition.isSatisfiedBy (condition : CompletionCondition P)
    (view : DataPointView) : Bool :=
  condition.isSatisfied declarations (DataPointView.types leafClass view)

variable {declarations leafClass}

/-- A class has an instance in a view when it satisfies the classes of the view. -/
theorem DataPointView.hasInstance_iff {view : DataPointView} {dataPointType : P} :
  DataPointView.HasInstance declarations leafClass view dataPointType
    ↔ declarations.satisfies (DataPointView.types leafClass view) dataPointType = true
  := by
  rw [HasInstance, ofType, Declarations.satisfies_iff, ne_eq, List.filter_eq_nil_iff, types]
  simp only [List.mem_toFinset, List.mem_map]
  push Not
  constructor
  · rintro ⟨dataPoint, hmem, hbelow⟩
    use leafClass dataPoint.type, ⟨dataPoint, hmem, rfl⟩
  · rintro ⟨_, ⟨dataPoint, hmem, rfl⟩, hbelow⟩
    use dataPoint, hmem

/-- The classes of a view are among those of one that has a DataPoint of each of its types. -/
theorem DataPointView.types_subset {view view' : DataPointView}
    (h : ∀ dataPoint ∈ view, ∃ dataPoint' ∈ view', dataPoint'.type = dataPoint.type) :
  DataPointView.types leafClass view ⊆ DataPointView.types leafClass view'
  := by
  intro t ht
  rw [types, List.mem_toFinset, List.mem_map] at ht ⊢
  obtain ⟨dataPoint, hmem, rfl⟩ := ht
  obtain ⟨dataPoint', hmem', htype⟩ := h dataPoint hmem
  use dataPoint', hmem'
  rw [htype]

end Views

/-! ### The nodes of a condition -/

namespace CompletionCondition

variable {P : Type}

mutual

/-- The nodes of the tree of a condition. -/
def nodes : CompletionCondition P → List (CompletionCondition P)
  | .typePresent dataPointType => [.typePresent dataPointType]
  | .allOf children => .allOf children :: nodesOfAll children
  | .anyOf children => .anyOf children :: nodesOfAll children
  | .custom condition => [.custom condition]

def nodesOfAll : List (CompletionCondition P) → List (CompletionCondition P)
  | [] => []
  | child :: children => nodes child ++ nodesOfAll children

end

/-- A node that cannot be looked into: a custom condition. -/
def IsOpaque (node : CompletionCondition P) : Prop := ∃ condition, node = .custom condition

/-- Some node of a condition is opaque. -/
def HasOpaque (condition : CompletionCondition P) : Prop :=
  ∃ node ∈ condition.nodes, node.IsOpaque

theorem not_isOpaque_typePresent {dataPointType : P} :
  ¬(CompletionCondition.typePresent dataPointType).IsOpaque
  := nofun

theorem not_isOpaque_allOf {children : List (CompletionCondition P)} :
  ¬(CompletionCondition.allOf children).IsOpaque
  := nofun

theorem not_isOpaque_anyOf {children : List (CompletionCondition P)} :
  ¬(CompletionCondition.anyOf children).IsOpaque
  := nofun

variable [DecidableEq P]

mutual

/-- The classes of a condition are unknown exactly when a node of it is opaque. -/
theorem hasOpaque_iff_referencedTypes : ∀ condition : CompletionCondition P,
  condition.HasOpaque ↔ condition.referencedTypes = none
  | .typePresent dataPointType => by
      rw [HasOpaque, nodes, referencedTypes]
      simp [not_isOpaque_typePresent]
  | .allOf children => by
      rw [HasOpaque, nodes, referencedTypes, ← hasOpaque_iff_referencedTypesOfAll children]
      simp [not_isOpaque_allOf]
  | .anyOf children => by
      rw [HasOpaque, nodes, referencedTypes, ← hasOpaque_iff_referencedTypesOfAll children]
      simp [not_isOpaque_anyOf]
  | .custom condition => by
      rw [HasOpaque, nodes, referencedTypes]
      simp [IsOpaque]

theorem hasOpaque_iff_referencedTypesOfAll : ∀ children : List (CompletionCondition P),
  (∃ node ∈ nodesOfAll children, node.IsOpaque) ↔ referencedTypesOfAll children = none
  | [] => by
      rw [nodesOfAll, referencedTypesOfAll]
      simp
  | child :: children => by
      have hchild := hasOpaque_iff_referencedTypes child
      have hchildren := hasOpaque_iff_referencedTypesOfAll children
      rw [HasOpaque] at hchild
      rw [nodesOfAll, referencedTypesOfAll]
      simp only [List.mem_append, or_and_right, exists_or, hchild, hchildren]
      cases referencedTypes child with
      | none => simp
      | some types =>
          cases referencedTypesOfAll children with
          | none => simp
          | some types' => simp

end

variable {C O : Type} {declarations : Declarations P C O} {present present' : Finset P}

mutual

/-- A condition that can be looked into is not taken away by more classes. -/
theorem isSatisfied_mono (hsub : present ⊆ present') : ∀ {condition : CompletionCondition P}
    {types : Finset P}, condition.referencedTypes = some types →
  condition.isSatisfied declarations present = true →
  condition.isSatisfied declarations present' = true
  | .typePresent dataPointType, _, _, h => by
      rw [isSatisfied] at h ⊢
      apply Declarations.satisfies_mono hsub h
  | .allOf children, types, htypes, h => by
      rw [referencedTypes] at htypes
      rw [isSatisfied] at h ⊢
      apply (satisfied_mono hsub htypes).1 h
  | .anyOf children, types, htypes, h => by
      rw [referencedTypes] at htypes
      rw [isSatisfied] at h ⊢
      apply (satisfied_mono hsub htypes).2 h
  | .custom _, types, htypes, _ => by
      rw [referencedTypes] at htypes
      cases htypes

theorem satisfied_mono (hsub : present ⊆ present') :
    ∀ {children : List (CompletionCondition P)} {types : Finset P},
  referencedTypesOfAll children = some types →
  (allSatisfied declarations present children = true →
      allSatisfied declarations present' children = true)
    ∧ (anySatisfied declarations present children = true →
      anySatisfied declarations present' children = true)
  | [], _, _ => by
      rw [allSatisfied, allSatisfied, anySatisfied, anySatisfied]
      constructor
      · apply id
      · apply id
  | child :: children, types, htypes => by
      rw [referencedTypesOfAll] at htypes
      split at htypes
      · rename_i types₁ types₂ hchild hchildren
        obtain ⟨hall, hany⟩ := satisfied_mono hsub hchildren
        have hone := isSatisfied_mono hsub hchild
        rw [allSatisfied, allSatisfied, anySatisfied, anySatisfied]
        simp only [Bool.and_eq_true, Bool.or_eq_true]
        constructor
        · rintro ⟨h, hs⟩
          use hone h, hall hs
        · rintro (h | hs)
          · left
            apply hone h
          · right
            apply hany hs
      · cases htypes

end

/-! ### Presence -/

/-- A condition without an opaque node depends on nothing but which of its classes have an
instance in the view, and stays satisfied while the view keeps a DataPoint of each type. Its
classes are unknown exactly when a node is opaque. -/
theorem isSatisfiedBy_presence (declarations : Declarations P C O) (leafClass : DataPointType → P)
    (condition : CompletionCondition P) :
  (¬condition.HasOpaque → ∃ types, condition.referencedTypes = some types
    ∧ (∀ view view' : DataPointView,
        (∀ t ∈ types, DataPointView.HasInstance declarations leafClass view t
          ↔ DataPointView.HasInstance declarations leafClass view' t) →
        condition.isSatisfiedBy declarations leafClass view
          = condition.isSatisfiedBy declarations leafClass view')
    ∧ ∀ view view' : DataPointView,
        (∀ dataPoint ∈ view, ∃ dataPoint' ∈ view', dataPoint'.type = dataPoint.type) →
        condition.isSatisfiedBy declarations leafClass view = true →
        condition.isSatisfiedBy declarations leafClass view' = true)
    ∧ (condition.referencedTypes = none ↔ condition.HasOpaque)
  := by
  constructor
  · intro hclear
    rw [hasOpaque_iff_referencedTypes] at hclear
    obtain ⟨types, htypes⟩ := Option.ne_none_iff_exists'.mp hclear
    use types, htypes
    constructor
    · intro view view' hsame
      apply isSatisfied_congr htypes
      intro t ht
      have h := hsame t ht
      rw [DataPointView.hasInstance_iff, DataPointView.hasInstance_iff] at h
      apply Bool.eq_iff_iff.mpr h
    · intro view view' hkeeps hsatisfied
      apply isSatisfied_mono (DataPointView.types_subset hkeeps) htypes hsatisfied
  · rw [hasOpaque_iff_referencedTypes]

/-- The class `mail` with a subclass `letter`. -/
def isMail (a b : DataPointType) : Bool := decide (a = b ∨ a = "letter" ∧ b = "mail")

theorem isMail_refl (a : DataPointType) :
  isMail a a = true
  := decide_eq_true (.inl rfl)

theorem isMail_trans {a b c : DataPointType} (hab : isMail a b = true) (hbc : isMail b c = true) :
  isMail a c = true
  := by
  rw [isMail, decide_eq_true_eq] at hab hbc ⊢
  grind

/-- These classes, and nothing that runs. -/
def correspondence : Declarations DataPointType Empty Empty where
  dataPoints :=
    { issubclass := isMail
      issubclass_refl := isMail_refl
      issubclass_trans := @isMail_trans }
  abstractTypes := {"mail"}
  registeredLeaves := ["letter"]
  capabilities := Hierarchy.flat Empty
  capabilityId := nofun
  capabilityDependsOn := nofun
  capabilityRequires := nofun
  operatorId := nofun
  dependsOn := nofun
  uses := nofun
  produces := nofun
  requires := nofun
  aggregator := nofun

/-- A letter. -/
def letter (text : String) : BaseDataPoint where
  type := "letter"
  value := .str text
  retrievedBy := "postman"
  firstRetrieved := 0
  lastRetrieved := 0
  hashed := .str text
  hashable := makeHashable_str text

/-- Mail of any class, beside conditions that ask for nothing. -/
def awaitedMail : CompletionCondition DataPointType :=
  .allOf [.anyOf [.anyOf [], .typePresent "mail"], .allOf []]

/-- A second letter leaves the condition on the first one satisfied. -/
theorem isSatisfiedBy_letters :
  awaitedMail.isSatisfiedBy correspondence id [letter "a"] = true
    ∧ awaitedMail.isSatisfiedBy correspondence id [letter "b", letter "a"] = true
  := by
  have hclear : ¬awaitedMail.HasOpaque := by
    rw [hasOpaque_iff_referencedTypes]
    decide
  obtain ⟨types, -, -, hmono⟩ := (isSatisfiedBy_presence correspondence id awaitedMail).1 hclear
  have hfirst : awaitedMail.isSatisfiedBy correspondence id [letter "a"] = true := by decide
  constructor
  · apply hfirst
  · apply hmono _ _ _ hfirst
    intro dataPoint h
    use dataPoint, List.mem_cons_of_mem _ h

end CompletionCondition

end Orcastork
