import Mathlib.Order.FixedPoints
import Mathlib.Order.CompletePartialOrder
import Orcastork.Scheduling.Readiness

/-!
# Availability is a least fixpoint

A set of capabilities is closed if it has every permitted capability whose inputs are present and
whose bases it provides. `compute_available` sweeps over the registry until a sweep adds nothing,
and what it ends with is the least closed set: a cycle of capabilities that only require each other
is not in it. So the order of the registry does not matter, and more classes or more permissions
take nothing away.
-/

namespace Orcastork

namespace Declarations

variable {P C O : Type} (declarations : Declarations P C O)

/-- What the capabilities of a set make available: the permitted ones whose inputs are present and
whose bases are in the set. -/
def availabilityRule (registered : Dict CapabilityId C) (permitted : Finset CapabilityId)
    (present : Finset P) : Set CapabilityId →o Set CapabilityId where
  toFun := fun available => { capabilityId | ∃ capability,
    registered.get? capabilityId = some capability ∧ capabilityId ∈ permitted
      ∧ (∀ required ∈ declarations.capabilityDependsOn capability, ∃ p ∈ present,
        declarations.dataPoints.issubclass p required = true)
      ∧ ∀ required ∈ declarations.capabilityRequires capability, ∃ baseId ∈ available, ∃ base,
        registered.get? baseId = some base
          ∧ declarations.capabilities.issubclass base required = true }
  monotone' := by
    rintro available available' hsub capabilityId ⟨capability, hget, hpermitted, hdeps, hbases⟩
    refine ⟨capability, hget, hpermitted, hdeps, ?_⟩
    intro required hrequired
    obtain ⟨baseId, hbase, hprovides⟩ := hbases required hrequired
    exact ⟨baseId, hsub hbase, hprovides⟩

variable {declarations} [DecidableEq C] {registered : Dict CapabilityId C}
  {permitted : Finset CapabilityId} {present : Finset P}

/-- The rule adds nothing to what is available. -/
theorem availabilityRule_computeAvailable_subset :
  declarations.availabilityRule registered permitted present
      (declarations.computeAvailable registered permitted present)
    ⊆ declarations.computeAvailable registered permitted present
  := by
  rintro capabilityId ⟨capability, hget, hpermitted, hdeps, hbases⟩
  apply mem_computeAvailable hget hpermitted
  · rw [depsPresent_iff]
    intro required hrequired
    exact satisfies_iff.mpr (hdeps required hrequired)
  · rw [requiresAvailable_iff]
    intro required hrequired
    obtain ⟨baseId, hbase, base, hbaseGet, hbelow⟩ := hbases required hrequired
    use base, mem_typesOf_iff.mpr ⟨baseId, hbase, hbaseGet⟩

/-- What is available is in every closed set. -/
theorem computeAvailable_subset_of_closed {available : Set CapabilityId}
    (hclosed : declarations.availabilityRule registered permitted present available ⊆ available) :
  (declarations.computeAvailable registered permitted present : Set CapabilityId) ⊆ available
  := by
  intro capabilityId hmem
  obtain ⟨-, -, havailable⟩ := @computeAvailable_induction P C O declarations _ registered permitted
    present (fun capabilityId _ => capabilityId ∈ available) (by
      intro capabilityId capability hget hpermitted hdeps hbases
      apply hclosed
      refine ⟨capability, hget, hpermitted, ?_, ?_⟩
      · intro required hrequired
        exact satisfies_iff.mp (depsPresent_iff.mp hdeps required hrequired)
      · intro required hrequired
        obtain ⟨baseId, base, hbaseGet, hbase, hbelow⟩ := hbases required hrequired
        exact ⟨baseId, hbase, base, hbaseGet, hbelow⟩) capabilityId hmem
  apply havailable

/-- What is available is the least fixpoint of the rule. -/
theorem computeAvailable_eq_lfp :
  (declarations.computeAvailable registered permitted present : Set CapabilityId)
    = (declarations.availabilityRule registered permitted present).lfp
  := by
  apply Set.Subset.antisymm
  · apply computeAvailable_subset_of_closed
    apply (OrderHom.map_lfp _).subset
  · apply OrderHom.lfp_le
    apply availabilityRule_computeAvailable_subset

omit [DecidableEq C] in
/-- The rule makes more available with more permissions and more classes. -/
theorem availabilityRule_mono {permitted' : Finset CapabilityId} {present' : Finset P}
    (hpermitted : permitted ⊆ permitted') (hpresent : present ⊆ present') :
  declarations.availabilityRule registered permitted present
    ≤ declarations.availabilityRule registered permitted' present'
  := by
  rintro available capabilityId ⟨capability, hget, hmem, hdeps, hbases⟩
  refine ⟨capability, hget, hpermitted hmem, ?_, hbases⟩
  intro required hrequired
  obtain ⟨p, hp, hbelow⟩ := hdeps required hrequired
  exact ⟨p, hpresent hp, hbelow⟩

omit [DecidableEq C] in
/-- The rule does not depend on the order of the registry. -/
theorem availabilityRule_perm {registered' : Dict CapabilityId C}
    (hperm : registered'.items.Perm registered.items) :
  declarations.availabilityRule registered' permitted present
    = declarations.availabilityRule registered permitted present
  := by
  have hget : ∀ capabilityId capability, registered'.get? capabilityId = some capability
      ↔ registered.get? capabilityId = some capability := by
    intro capabilityId capability
    rw [Dict.get?_eq_some_iff, Dict.get?_eq_some_iff]
    exact hperm.mem_iff
  ext available capabilityId
  simp only [availabilityRule, hget]

/-- `compute_available` ends with the least closed set, whatever the order of the registry, and is
monotone. -/
theorem computeAvailable_isLeast (declarations : Declarations P C O)
    (registered : Dict CapabilityId C) (permitted : Finset CapabilityId) (present : Finset P) :
  (∀ sweeps, enoughSweeps registered.items ≤ sweeps →
      saturate (fun _ => declarations.visitCapability registered permitted present)
          registered.items sweeps ∅
        = declarations.computeAvailable registered permitted present)
    ∧ IsLeast { available : Set CapabilityId |
        declarations.availabilityRule registered permitted present available ⊆ available }
      (declarations.computeAvailable registered permitted present)
    ∧ (∀ registered' : Dict CapabilityId C, registered'.items.Perm registered.items →
      declarations.computeAvailable registered' permitted present
        = declarations.computeAvailable registered permitted present)
    ∧ ∀ permitted' present', permitted ⊆ permitted' → present ⊆ present' →
      declarations.computeAvailable registered permitted present
        ⊆ declarations.computeAvailable registered permitted' present'
  := by
  refine ⟨?_, ?_, ?_, ?_⟩
  · intro sweeps henough
    exact collecting_visitCapability.saturate_of_le registered.items rfl henough
  · constructor
    · apply availabilityRule_computeAvailable_subset
    · intro available hclosed
      exact computeAvailable_subset_of_closed hclosed
  · intro registered' hperm
    apply Finset.coe_injective
    rw [computeAvailable_eq_lfp, computeAvailable_eq_lfp, availabilityRule_perm hperm]
  · intro permitted' present' hpermitted hpresent
    rw [← Finset.coe_subset, computeAvailable_eq_lfp, computeAvailable_eq_lfp]
    exact OrderHom.lfp.monotone (availabilityRule_mono hpermitted hpresent)

end Declarations

end Orcastork
