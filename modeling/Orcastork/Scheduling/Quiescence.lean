import Mathlib.Order.FixedPoints
import Mathlib.Order.CompletePartialOrder
import Orcastork.Graph.Reachability
import Orcastork.Scheduling.Readiness

/-!
# Quiescence

The operators that have not run and could still become ready, once those of them that can run have
produced: starting from the classes present, an operator whose inputs are producible is admitted,
and what it produces is producible too. They are the least fixed point of one round of this
(`reachablePending_eq_lfp`), and there are none exactly if no operator is ready as it is
(`reachablePending_eq_empty_iff`).
-/

namespace Orcastork

namespace Declarations

variable {P C O : Type} [DecidableEq P] (declarations : Declarations P C O)

/-- `_deps_reachable`. -/
def depsReachable (operator : O) (producible : Finset P) : Bool :=
  decide (∀ required ∈ declarations.dependsOn operator,
    declarations.satisfies producible required = true)

omit [DecidableEq P] in
/-- `_caps_available`. -/
def capsAvailable (operator : O) (available : Finset C) : Bool :=
  decide (∀ required ∈ declarations.requires operator, ∃ capability ∈ available,
    declarations.capabilities.issubclass capability required = true)

/-- The classes that are producible so far, and the operators that are reachable. -/
structure Reaching (P O : Type) where
  producible : Finset P
  reachable : Finset O

variable [DecidableEq O]

/-- The visit of an operator in `reachable_pending`. -/
def visitPending (available : Finset C) (state : Reaching P O) (operator : O) :
    Option (Reaching P O) :=
  if operator ∈ state.reachable then
    none
  else if declarations.depsReachable operator state.producible
      && declarations.capsAvailable operator available then
    some ⟨state.producible ∪ declarations.effectiveProduces operator,
      insert operator state.reachable⟩
  else
    none

/-- `reachable_pending`: the pending operators that could still become ready. -/
def reachablePending (pending : List O) (present : Finset P) (available : Finset C) : Finset O :=
  (saturate (fun _ => declarations.visitPending available) pending (enoughSweeps pending)
    ⟨present, ∅⟩).reachable

/-! ### The fixed point -/

/-- One round: the pending operators whose inputs are present or produced by some operators, and
whose capabilities are available. -/
def producibility (pending : List O) (present : Finset P) (available : Finset C) :
    Set O →o Set O where
  toFun reached := { operator | operator ∈ pending
    ∧ (∀ required ∈ declarations.dependsOn operator, declarations.satisfies present required = true
      ∨ ∃ producer ∈ reached,
        declarations.satisfies (declarations.effectiveProduces producer) required = true)
    ∧ declarations.capsAvailable operator available = true }
  monotone' := by
    rintro reached reached' hsub operator ⟨hpending, hinputs, hcaps⟩
    refine ⟨hpending, ?_, hcaps⟩
    intro required hrequired
    apply (hinputs required hrequired).imp_right
    rintro ⟨producer, hproducer, hsatisfies⟩
    use producer, hsub hproducer

variable {declarations} {pending : List O} {present : Finset P} {available : Finset C}

theorem visitPending_eq_some {state state' : Reaching P O} {operator : O}
    (h : declarations.visitPending available state operator = some state') :
  operator ∉ state.reachable ∧ declarations.depsReachable operator state.producible = true
    ∧ declarations.capsAvailable operator available = true
    ∧ state' = ⟨state.producible ∪ declarations.effectiveProduces operator,
      insert operator state.reachable⟩
  := by
  rw [visitPending] at h
  split at h
  · cases h
  · rename_i hnew
    split at h
    · rename_i hadmitted
      rw [Bool.and_eq_true] at hadmitted
      cases h
      use hnew, hadmitted.1, hadmitted.2
    · cases h

/-- The loop of `reachable_pending` collects the operators. -/
theorem collecting_visitPending :
  Collecting (fun _ => declarations.visitPending available) (id : O → O) Reaching.reachable
  := by
  intro start state operator state' hvisit
  obtain ⟨hnew, -, -, rfl⟩ := visitPending_eq_some hvisit
  use hnew
  rfl

/-- What is producible is present, or produced by an operator that is reachable. -/
def Reaching.Accounted (declarations : Declarations P C O) (present : Finset P)
    (state : Reaching P O) : Prop :=
  ∀ p, p ∈ state.producible
    ↔ p ∈ present ∨ ∃ operator ∈ state.reachable, p ∈ declarations.effectiveProduces operator

omit [DecidableEq O] in
/-- The inputs of an operator are producible if each is present or produced by an operator that is
reachable. -/
theorem Reaching.Accounted.depsReachable_iff {state : Reaching P O}
    (h : state.Accounted declarations present) {operator : O} :
  declarations.depsReachable operator state.producible = true
    ↔ ∀ required ∈ declarations.dependsOn operator,
      declarations.satisfies present required = true
        ∨ ∃ producer ∈ state.reachable,
          declarations.satisfies (declarations.effectiveProduces producer) required = true
  := by
  rw [depsReachable, decide_eq_true_eq]
  apply forall_congr'
  intro required
  apply forall_congr'
  intro _
  simp only [satisfies_iff]
  constructor
  · rintro ⟨p, hp, hbelow⟩
    rcases (h p).mp hp with hpresent | ⟨producer, hproducer, hproduces⟩
    · left
      use p
    · right
      use producer, hproducer, p
  · rintro (⟨p, hp, hbelow⟩ | ⟨producer, hproducer, p, hp, hbelow⟩)
    · use p, (h p).mpr (Or.inl hp)
    · use p, (h p).mpr (Or.inr ⟨producer, hproducer, hp⟩)

/-- An operator that is admitted accounts for what it produces. -/
theorem Reaching.Accounted.admit {state : Reaching P O}
    (h : state.Accounted declarations present) (operator : O) :
  Reaching.Accounted declarations present
    ⟨state.producible ∪ declarations.effectiveProduces operator, insert operator state.reachable⟩
  := by
  intro p
  rw [Finset.mem_union, h p, or_assoc]
  apply or_congr Iff.rfl
  constructor
  · rintro (⟨producer, hproducer, hproduces⟩ | hproduces)
    · use producer, Finset.mem_insert_of_mem hproducer
    · use operator, Finset.mem_insert_self _ _
  · rintro ⟨producer, hproducer, hproduces⟩
    rcases Finset.mem_insert.mp hproducer with rfl | hproducer
    · right
      apply hproduces
    · left
      use producer

/-- The operators the loop finds are the least fixed point of a round. -/
theorem reachablePending_eq_lfp :
  (declarations.reachablePending pending present available : Set O)
    = OrderHom.lfp (declarations.producibility pending present available)
  := by
  have hkept : ∀ n, Reaching.Accounted declarations present
        (saturate (fun _ => declarations.visitPending available) pending n ⟨present, ∅⟩)
      ∧ ((saturate (fun _ => declarations.visitPending available) pending n
          ⟨present, ∅⟩).reachable : Set O)
        ⊆ OrderHom.lfp (declarations.producibility pending present available) := by
    intro n
    apply saturate_invariant (fun state : Reaching P O =>
      Reaching.Accounted declarations present state ∧ (state.reachable : Set O)
        ⊆ OrderHom.lfp (declarations.producibility pending present available))
    · rintro start state operator state' - ⟨haccounted, hsub⟩ hpending hvisit
      obtain ⟨-, hdeps, hcaps, rfl⟩ := visitPending_eq_some hvisit
      use haccounted.admit operator
      rw [Finset.coe_insert, Set.insert_subset_iff]
      refine ⟨?_, hsub⟩
      rw [← OrderHom.map_lfp]
      refine ⟨hpending, ?_, hcaps⟩
      intro required hrequired
      apply (haccounted.depsReachable_iff.mp hdeps required hrequired).imp_right
      rintro ⟨producer, hproducer, hsatisfies⟩
      use producer, hsub hproducer
    · constructor
      · intro p
        simp
      · simp
  obtain ⟨haccounted, hsub⟩ := hkept (enoughSweeps pending)
  apply Set.Subset.antisymm hsub
  apply OrderHom.lfp_le
  rintro operator ⟨hpending, hinputs, hcaps⟩
  -- the loop has ended, and leaves no operator to be admitted
  have hnone : declarations.visitPending available
      (saturate (fun _ => declarations.visitPending available) pending (enoughSweeps pending)
        ⟨present, ∅⟩) operator = none :=
    collecting_visitPending.saturated pending rfl operator hpending
  by_contra hnew
  rw [visitPending, if_neg (Finset.mem_coe.not.mp hnew), haccounted.depsReachable_iff.mpr hinputs, hcaps] at hnone
  cases hnone

/-! ### Quiescence -/

omit [DecidableEq P] [DecidableEq O] in
/-- An operator is ready if its inputs are reachable as they are, and its capabilities are
available. -/
theorem isReady_eq {operator : O} :
  declarations.isReady operator present available
    = (declarations.depsReachable operator present && declarations.capsAvailable operator available)
  := by
  rw [Bool.eq_iff_iff, isReady_iff, Bool.and_eq_true, depsReachable, capsAvailable,
    decide_eq_true_eq, decide_eq_true_eq]

/-- No pending operator could become ready if and only if none of them is. -/
theorem reachablePending_eq_empty_iff :
  declarations.reachablePending pending present available = ∅
    ↔ ∀ operator ∈ pending, declarations.isReady operator present available = false
  := by
  constructor
  · intro hempty operator hpending
    by_contra hready
    rw [Bool.not_eq_false, isReady_iff] at hready
    have hmem : operator
        ∈ OrderHom.lfp (declarations.producibility pending present available) := by
      rw [← OrderHom.map_lfp]
      refine ⟨hpending, ?_, decide_eq_true hready.2⟩
      intro required hrequired
      left
      apply hready.1 required hrequired
    rw [← reachablePending_eq_lfp, hempty] at hmem
    cases hmem
  · intro hunready
    rw [reachablePending, saturate_of_saturated]
    intro operator hpending
    have hnot := hunready operator hpending
    rw [isReady_eq] at hnot
    rw [visitPending, if_neg (Finset.notMem_empty operator), if_neg]
    rw [hnot]
    nofun

end Declarations

end Orcastork
