import Orcastork.Capabilities.Activation
import Orcastork.Lite.Gather

/-!
# The capability activator of the lite orchestrator

A refresh activates what is newly available, base before layer. An activation that fails is not
tried again: the capability stays unavailable for the rest of the session. So the ids of what was
activated and of what failed make a register (`Register`): no capability is in it twice, and one
that was activated found its bases activated before it. A refresh leaves nothing behind that it
could have attempted (`Settled`).
-/

namespace Orcastork

namespace Lite

/-- How the activation of a capability ends. -/
inductive ActivationOutcome where
  | activated
  /-- An error or a timeout: the session goes on without the capability. -/
  | failed
  /-- The constructor or the catalog raises, and with it the refresh. -/
  | raised
  deriving DecidableEq, Repr

/-- `CapabilityActivator`: the ids of what was activated, in order, and of what failed. -/
structure Activator where
  activated : List CapabilityId
  failed : List CapabilityId
  deriving DecidableEq, Repr

/-- What the catalog says when the activator is refreshed, and how the activations end. -/
structure Refresh where
  permitted : Finset CapabilityId
  preference : List CapabilityId
  /-- The order in which the set of what is available is gone through. -/
  order : List CapabilityId
  outcome : CapabilityId → ActivationOutcome

/-- The capabilities of a session by id. -/
def Services.registered {P C O : Type} (services : Services P C O) : Dict CapabilityId C :=
  services.declarations.registered services.capabilities

namespace Activator

/-- Nothing was activated. -/
def initial : Activator := ⟨[], []⟩

variable {P C O : Type} [DecidableEq C] (services : Services P C O) (call : Refresh)
  (activator : Activator)

/-- `_activate`; nothing if it raises. -/
def activate (activator : Activator) (capabilityId : CapabilityId) : Option Activator :=
  match call.outcome capabilityId with
  | .activated => some { activator with activated := activator.activated ++ [capabilityId] }
  | .failed => some { activator with failed := activator.failed ++ [capabilityId] }
  | .raised => none

/-- The bases of a capability are activated. -/
def isReady (capabilityId : CapabilityId) : Bool :=
  match services.registered.get? capabilityId with
  | none => false
  | some capability =>
    services.declarations.requiresAvailable (services.declarations.capabilityRequires capability)
      activator.activated.toFinset services.registered

/-- The loop that activates what is pending. A round takes one capability at least off what is
pending, so as many rounds as there are capabilities suffice. -/
def activatePending : ℕ → List CapabilityId → Activator → Option Activator
  | 0, _, activator => some activator
  | rounds + 1, pending, activator =>
    let ready := pending.filter (activator.isReady services)
    if ready.isEmpty then
      some activator
    else
      (ready.foldlM (activate call) activator).bind
        (activatePending rounds (pending.filter (fun capabilityId => capabilityId ∉ ready)))

/-- What is available, and neither activated nor failed. -/
def pending : List CapabilityId :=
  call.order.filter (fun capabilityId =>
    capabilityId ∉ activator.activated ∧ capabilityId ∉ activator.failed)

/-- `refresh`: the view and the activator then; nothing if it raises. -/
def refresh (present : Finset P) : Option (CapabilityView × Activator) :=
  let available := services.declarations.computeAvailable services.registered call.permitted present
  if call.order.Nodup ∧ call.order.toFinset = available then
    let pending := activator.pending call
    (activatePending services call pending.length pending activator).map (fun activator =>
      (⟨available ∩ activator.activated.toFinset, call.preference⟩, activator))
  else none

/-! ### The register -/

/-- What holds of an activator: no capability was attempted twice, and one that was activated found
its bases activated before it. -/
structure Register (activator : Activator) : Prop where
  nodup : (activator.activated ++ activator.failed).Nodup
  layered : ∀ before capabilityId after, activator.activated = before ++ capabilityId :: after →
    isReady services ⟨before, []⟩ capabilityId = true

/-- Nothing that is available could still be attempted: what was not has a base that is not
activated. -/
def Settled (available : Finset CapabilityId) : Prop :=
  ∀ capabilityId ∈ available, capabilityId ∈ activator.activated ∨ capabilityId ∈ activator.failed
    ∨ activator.isReady services capabilityId = false

variable {services call activator}

/-- More activated capabilities make more ready. -/
theorem isReady_mono {activator' : Activator} {capabilityId : CapabilityId}
    (hsub : activator.activated ⊆ activator'.activated)
    (h : activator.isReady services capabilityId = true) :
  activator'.isReady services capabilityId = true
  := by
  rw [isReady] at h ⊢
  cases hget : services.registered.get? capabilityId with
  | none =>
      rw [hget] at h
      cases h
  | some capability =>
      rw [hget] at h
      dsimp only at h ⊢
      rw [Declarations.requiresAvailable_iff] at h ⊢
      intro required hrequired
      obtain ⟨base, hbase, hbelow⟩ := h required hrequired
      obtain ⟨baseId, hbaseId, hbaseGet⟩ := Declarations.mem_typesOf_iff.mp hbase
      rw [List.mem_toFinset] at hbaseId
      use base, Declarations.mem_typesOf_iff.mpr
        ⟨baseId, List.mem_toFinset.mpr (hsub hbaseId), hbaseGet⟩

theorem register_initial :
  Register services initial
  := by
  constructor
  · apply List.nodup_nil
  · intro before capabilityId after hsplit
    cases before <;> cases hsplit

/-! ### Attempts -/

omit [DecidableEq C] in
/-- An attempt is noted as what it came to. -/
theorem activate_cases {activator' : Activator} {capabilityId : CapabilityId}
    (h : activate call activator capabilityId = some activator') :
  (call.outcome capabilityId = .activated
      ∧ activator' = { activator with activated := activator.activated ++ [capabilityId] })
    ∨ (call.outcome capabilityId = .failed
      ∧ activator' = { activator with failed := activator.failed ++ [capabilityId] })
  := by
  rw [activate] at h
  split at h
  · rename_i houtcome
    left
    use houtcome
    apply (Option.some.inj h).symm
  · rename_i houtcome
    right
    use houtcome
    apply (Option.some.inj h).symm
  · cases h

/-- A ready capability that was not attempted yet can be. -/
theorem Register.activate {activator' : Activator} {capabilityId : CapabilityId}
    (h : Register services activator)
    (hnew : capabilityId ∉ activator.activated ++ activator.failed)
    (hready : activator.isReady services capabilityId = true)
    (hactivate : Activator.activate call activator capabilityId = some activator') :
  Register services activator'
  := by
  have hnodup : (capabilityId :: (activator.activated ++ activator.failed)).Nodup := by
    rw [List.nodup_cons]
    use hnew
    apply h.nodup
  rcases activate_cases hactivate with ⟨-, rfl⟩ | ⟨-, rfl⟩
  · constructor
    · dsimp only
      rw [List.append_assoc, List.singleton_append]
      apply List.perm_middle.nodup_iff.mpr hnodup
    · intro before other after hsplit
      rcases append_singleton_eq_append_cons hsplit with ⟨rfl, rfl, -⟩ | ⟨after', -, hbefore⟩
      · apply hready
      · apply h.layered before other after' hbefore
  · constructor
    · dsimp only
      rw [← List.append_assoc]
      apply (List.perm_append_singleton _ _).nodup_iff.mpr hnodup
    · apply h.layered

/-- An attempt adds its capability to what was attempted. -/
theorem attempted_activate {activator' : Activator} {capabilityId : CapabilityId}
    (h : activate call activator capabilityId = some activator') :
  activator.activated ⊆ activator'.activated ∧ activator.failed ⊆ activator'.failed
    ∧ ∀ other, other ∈ activator'.activated ++ activator'.failed
      ↔ other = capabilityId ∨ other ∈ activator.activated ++ activator.failed
  := by
  rcases activate_cases h with ⟨-, rfl⟩ | ⟨-, rfl⟩
  · use List.subset_append_left _ _, List.Subset.refl _
    intro other
    simp only [List.mem_append, List.mem_singleton]
    tauto
  · use List.Subset.refl _, List.subset_append_left _ _
    intro other
    simp only [List.mem_append, List.mem_singleton]
    tauto

/-- The attempts of a round, of capabilities that were ready when it began: each is noted. -/
theorem Register.activateAll {ids : List CapabilityId} {activator' : Activator}
    (h : Register services activator) (hnodup : ids.Nodup)
    (hready : ∀ capabilityId ∈ ids, capabilityId ∉ activator.activated ++ activator.failed
      ∧ activator.isReady services capabilityId = true)
    (hround : ids.foldlM (Activator.activate call) activator = some activator') :
  Register services activator' ∧ activator.activated ⊆ activator'.activated
    ∧ activator.failed ⊆ activator'.failed
    ∧ ∀ capabilityId, capabilityId ∈ activator'.activated ++ activator'.failed
      ↔ capabilityId ∈ ids ∨ capabilityId ∈ activator.activated ++ activator.failed
  := by
  induction ids generalizing activator with
  | nil =>
      obtain rfl := Option.some.inj hround
      use h, List.Subset.refl _, List.Subset.refl _
      simp
  | cons capabilityId ids ih =>
      rw [List.foldlM_cons, Option.bind_eq_bind, Option.bind_eq_some_iff] at hround
      obtain ⟨between, hactivate, hround⟩ := hround
      rw [List.nodup_cons] at hnodup
      obtain ⟨hnew, hmine⟩ := hready capabilityId List.mem_cons_self
      obtain ⟨hsub, hsub', hnoted⟩ := attempted_activate hactivate
      have hbetween := h.activate hnew hmine hactivate
      obtain ⟨hregister, hlater, hlater', hmem⟩ := ih hbetween hnodup.2 (by
        intro other hother
        obtain ⟨hnew', hready'⟩ := hready other (List.mem_cons_of_mem _ hother)
        constructor
        · rw [hnoted]
          rintro (rfl | hold)
          · apply hnodup.1 hother
          · apply hnew' hold
        · apply isReady_mono hsub hready') hround
      use hregister, List.Subset.trans hsub hlater, List.Subset.trans hsub' hlater'
      intro other
      rw [hmem, hnoted, List.mem_cons]
      tauto

/-! ### The loop -/

/-- The loop leaves a register, and nothing pending that could be attempted. -/
theorem Register.activatePending {rounds : ℕ} {pending : List CapabilityId}
    {activator' : Activator} (h : Register services activator) (hnodup : pending.Nodup)
    (hnew : ∀ capabilityId ∈ pending, capabilityId ∉ activator.activated ++ activator.failed)
    (hrounds : pending.length ≤ rounds)
    (hloop : Activator.activatePending services call rounds pending activator = some activator') :
  Register services activator' ∧ activator.activated ⊆ activator'.activated
    ∧ activator.failed ⊆ activator'.failed ∧ Settled services activator' pending.toFinset
  := by
  induction rounds generalizing pending activator with
  | zero =>
      obtain rfl := List.length_eq_zero_iff.mp (Nat.le_zero.mp hrounds)
      obtain rfl := Option.some.inj hloop
      use h, List.Subset.refl _, List.Subset.refl _
      nofun
  | succ rounds ih =>
      rw [Activator.activatePending] at hloop
      split at hloop
      · rename_i hempty
        obtain rfl := Option.some.inj hloop
        use h, List.Subset.refl _, List.Subset.refl _
        intro capabilityId hmem
        right
        right
        rw [List.isEmpty_iff, List.filter_eq_nil_iff] at hempty
        rw [← Bool.not_eq_true]
        apply hempty capabilityId (List.mem_toFinset.mp hmem)
      · rename_i hready
        rw [Option.bind_eq_some_iff] at hloop
        obtain ⟨between, hround, hloop⟩ := hloop
        have hround_new : ∀ capabilityId ∈ pending.filter (activator.isReady services),
            capabilityId ∉ activator.activated ++ activator.failed
              ∧ activator.isReady services capabilityId = true := by
          intro capabilityId hmem
          obtain ⟨hmem, hready⟩ := List.mem_filter.mp hmem
          use hnew capabilityId hmem
        obtain ⟨hbetween, hsub, hsub', hmem⟩ :=
          h.activateAll (hnodup.filter _) hround_new hround
        have hrest_new : ∀ capabilityId ∈ pending.filter (fun capabilityId =>
              capabilityId ∉ pending.filter (activator.isReady services)),
            capabilityId ∉ between.activated ++ between.failed := by
          intro capabilityId hleft hattempted
          rw [List.mem_filter, decide_eq_true_eq] at hleft
          rcases (hmem capabilityId).mp hattempted with hround | hold
          · apply hleft.2 hround
          · apply hnew capabilityId hleft.1 hold
        have hshorter : (pending.filter (fun capabilityId =>
            capabilityId ∉ pending.filter (activator.isReady services))).length ≤ rounds := by
          -- the first capability that is ready is taken off
          have hlt : (pending.filter (fun capabilityId =>
              capabilityId ∉ pending.filter (activator.isReady services))).length
                < pending.length := by
            rw [List.length_filter_lt_length_iff_exists]
            rw [List.isEmpty_iff] at hready
            obtain ⟨capabilityId, hfirst⟩ := List.exists_mem_of_ne_nil _ hready
            use capabilityId, List.mem_of_mem_filter hfirst
            rw [decide_eq_true_eq]
            apply not_not.mpr hfirst
          omega
        obtain ⟨hregister, hlater, hlater', hsettled⟩ :=
          ih hbetween (hnodup.filter _) hrest_new hshorter hloop
        use hregister, List.Subset.trans hsub hlater, List.Subset.trans hsub' hlater'
        intro capabilityId hpending
        rw [List.mem_toFinset] at hpending
        by_cases hround : capabilityId ∈ pending.filter (activator.isReady services)
        · rcases List.mem_append.mp ((hmem capabilityId).mpr (Or.inl hround)) with hdone | hdone
          · left
            apply hlater hdone
          · right
            left
            apply hlater' hdone
        · apply hsettled capabilityId
          rw [List.mem_toFinset, List.mem_filter]
          use hpending
          apply decide_eq_true hround

/-- A refresh leaves a register that is settled, and exposes what is available and activated. -/
theorem Register.refresh {present : Finset P} {view : CapabilityView} {activator' : Activator}
    (h : Register services activator)
    (hrefresh : activator.refresh services call present = some (view, activator')) :
  Register services activator' ∧ activator.activated ⊆ activator'.activated
    ∧ activator.failed ⊆ activator'.failed
    ∧ Settled services activator'
      (services.declarations.computeAvailable services.registered call.permitted present)
    ∧ view.available
      = services.declarations.computeAvailable services.registered call.permitted present
        ∩ activator'.activated.toFinset
  := by
  rw [Activator.refresh] at hrefresh
  dsimp only at hrefresh
  rw [Option.ite_none_right_eq_some, Option.map_eq_some_iff] at hrefresh
  obtain ⟨⟨hnodup, horder⟩, looped, hloop, hview⟩ := hrefresh
  obtain ⟨rfl, rfl⟩ := Prod.mk.inj hview
  obtain ⟨hregister, hsub, hsub', hsettled⟩ := h.activatePending (hnodup.filter _) (by
    intro capabilityId hmem
    have hnew := of_decide_eq_true (List.mem_filter.mp hmem).2
    rw [List.mem_append]
    apply not_or.mpr hnew) (Nat.le_refl _) hloop
  use hregister, hsub, hsub'
  refine ⟨?_, rfl⟩
  intro capabilityId hmem
  rw [← horder, List.mem_toFinset] at hmem
  by_cases hpending : capabilityId ∈ activator.pending call
  · apply hsettled capabilityId (List.mem_toFinset.mpr hpending)
  · have hold : capabilityId ∈ activator.activated ∨ capabilityId ∈ activator.failed := by
      by_contra hnew
      apply hpending
      apply List.mem_filter.mpr
      use hmem
      apply decide_eq_true (not_or.mp hnew)
    rcases hold with hold | hold
    · left
      apply hsub hold
    · right
      left
      apply hsub' hold

end Activator

end Lite

end Orcastork
