import Orcastork.Capabilities.Activation

/-!
# What a view exposes

A capability is activated once its bases are, and exposed while it is available. What was activated
stays so after its permission is revoked, and a revoked base still counts as activated. So a view
exposes a capability without its base, if the base was revoked and the activation of another
provider fails (`exposed_without_base`); and it is closed under `requires` as long as no revocation
takes the last activated provider of what an available capability requires
(`view_closed_of_keepsBases`).
-/

namespace Orcastork

/-- The capabilities that succeeded in some steps. -/
def activatedBy (steps : List (CapabilityId × ActivationStep)) : Finset CapabilityId :=
  ((steps.filter (fun step => step.2.succeeds)).map Prod.fst).toFinset

theorem activatedBy_append (first second : List (CapabilityId × ActivationStep)) :
  activatedBy (first ++ second) = activatedBy first ∪ activatedBy second
  := by
  rw [activatedBy, List.filter_append, List.map_append, List.toFinset_append, activatedBy, activatedBy]

namespace Activator

variable {P C O : Type} [DecidableEq C] (services : ActivatorServices P C O)

/-- One of some capabilities provides a base. -/
def Provided (ids : Finset CapabilityId) (required : C) : Prop :=
  ∃ baseId ∈ ids, ∃ base, services.registered.get? baseId = some base
    ∧ services.declarations.capabilities.issubclass base required = true

/-- Some capabilities provide all that a capability requires. -/
def Backed (ids : Finset CapabilityId) (capabilityId : CapabilityId) : Prop :=
  ∀ capability, services.registered.get? capabilityId = some capability →
    ∀ required ∈ services.declarations.capabilityRequires capability,
      Provided services ids required

variable {services} {call : RefreshCall services} {start activator activator' : Activator}
  {capabilityId : CapabilityId}

omit [DecidableEq C] in
theorem Backed.mono {ids ids' : Finset CapabilityId} (h : Backed services ids capabilityId)
    (hsub : ids ⊆ ids') :
  Backed services ids' capabilityId
  := by
  intro capability hget required hrequired
  obtain ⟨baseId, hbase, hprovides⟩ := h capability hget required hrequired
  exact ⟨baseId, hsub hbase, hprovides⟩

/-- What an attempt does to what is activated and to the log. -/
theorem activate_cases (services : ActivatorServices P C O) (call : RefreshCall services)
    (activator : Activator) (capabilityId : CapabilityId) :
  let attempt := [(capabilityId, ActivationStep.attempted call.now (call.ends capabilityId))]
  ((activator.activate call capabilityId).2.activated = insert capabilityId activator.activated
      ∧ activatedBy attempt = {capabilityId}
      ∧ (activator.activate call capabilityId).2.steps = activator.steps ++ attempt)
    ∨ (activator.activate call capabilityId).2.activated = activator.activated
      ∧ activatedBy attempt = ∅
      ∧ ((activator.activate call capabilityId).2.steps = activator.steps ++ attempt
        ∨ (activator.activate call capabilityId).2.steps
          = activator.steps ++ attempt ++ [(capabilityId, .terminal)])
  := by
  rw [activate]
  cases hends : call.ends capabilityId with
  | succeeded => exact Or.inl ⟨rfl, rfl, rfl⟩
  | failed at' =>
      right
      simp only [recordFailure]
      split
      · exact ⟨rfl, rfl, Or.inr rfl⟩
      · exact ⟨rfl, rfl, Or.inl rfl⟩
  | raised => exact Or.inr ⟨rfl, rfl, Or.inl rfl⟩

/-- The bases of a ready capability are activated. -/
theorem backed_of_isReady (h : activator.isReady services capabilityId = true) :
  Backed services activator.activated capabilityId
  := by
  intro capability hget required hrequired
  rw [isReady, hget] at h
  obtain ⟨base, hbase, hbelow⟩ :=
    Declarations.requiresAvailable_iff.mp h required hrequired
  obtain ⟨baseId, hactivated, hbaseGet⟩ := Declarations.mem_typesOf_iff.mp hbase
  exact ⟨baseId, hactivated, base, hbaseGet, hbelow⟩

/-- No revocation has taken the last activated provider of what an available capability requires,
if the capability is activated or due to be. -/
def KeepsBases (services : ActivatorServices P C O) (activator : Activator) (call : RefreshCall services) :
    Prop :=
  ∀ capabilityId ∈ call.available,
    capabilityId ∈ activator.activated ∨ activator.mayAttempt capabilityId call.now = true →
    ∀ capability, services.registered.get? capabilityId = some capability →
      ∀ required ∈ services.declarations.capabilityRequires capability,
        Provided services activator.activated required →
        Provided services (call.available ∩ activator.activated) required

/-- What is activated is what the log says, and its bases are activated. -/
structure Supported (services : ActivatorServices P C O) (activator : Activator) : Prop where
  logged : activator.activated = activatedBy activator.steps
  supported : ∀ capabilityId ∈ activator.activated,
    Backed services activator.activated capabilityId

/-- The course of a refresh: only what is available was activated, each of its attempts found the
bases available and activated, and so does what it would expose. -/
structure Refreshing (services : ActivatorServices P C O) (call : RefreshCall services)
    (start activator : Activator) : Prop where
  supported : Supported services activator
  grows : start.activated ⊆ activator.activated
  within : ∀ capabilityId ∈ activator.activated,
    capabilityId ∈ start.activated ∨ capabilityId ∈ call.available
  attempts : ∀ before capabilityId now ends after,
    activator.steps = before ++ (capabilityId, .attempted now ends) :: after →
    start.steps.length ≤ before.length →
    Backed services (call.available ∩ activatedBy before) capabilityId
  exposed : ∀ capabilityId ∈ call.available, capabilityId ∈ activator.activated →
    Backed services (call.available ∩ activator.activated) capabilityId

namespace Refreshing

/-- The attempts in the log, once another is made whose bases are there. -/
theorem attempts_append
    (h : ∀ before capabilityId now ends after,
      activator.steps = before ++ (capabilityId, .attempted now ends) :: after →
      start.steps.length ≤ before.length →
      Backed services (call.available ∩ activatedBy before) capabilityId)
    (step : CapabilityId × ActivationStep)
    (hbacked : Backed services (call.available ∩ activatedBy activator.steps) step.1) :
  ∀ before capabilityId now ends after,
    activator.steps ++ [step] = before ++ (capabilityId, .attempted now ends) :: after →
    start.steps.length ≤ before.length →
    Backed services (call.available ∩ activatedBy before) capabilityId
  := by
  intro before capabilityId now ends after hsplit hlength
  rcases append_singleton_eq_append_cons hsplit with ⟨rfl, rfl, -⟩ | ⟨after', -, hbefore⟩
  · exact hbacked
  · exact h before capabilityId now ends after' hbefore hlength

/-- An attempt whose bases are available and activated keeps the course. -/
theorem activate (h : Refreshing services call start activator)
    (havailable : capabilityId ∈ call.available)
    (hbacked : Backed services (call.available ∩ activator.activated) capabilityId) :
  Refreshing services call start (activator.activate call capabilityId).2
  := by
  obtain ⟨⟨hlogged, hsupported⟩, hgrows, hwithin, hattempts, hexposed⟩ := h
  have hcases := activate_cases services call activator capabilityId
  simp only at hcases
  generalize (activator.activate call capabilityId).2 = activator' at hcases ⊢
  rcases hcases with ⟨hactivated, hsucceeds, hsteps⟩ | ⟨hactivated, hsucceeds, hsteps⟩
  · have hsub : activator.activated ⊆ activator'.activated := by
      rw [hactivated]
      exact Finset.subset_insert _ _
    refine ⟨⟨?_, ?_⟩, hgrows.trans hsub, ?_, ?_, ?_⟩
    · rw [hactivated, hsteps, activatedBy_append, hsucceeds, ← hlogged, Finset.union_comm]
      exact Finset.insert_eq _ _
    · intro other hother
      rw [hactivated, Finset.mem_insert] at hother
      rcases hother with rfl | hother
      · exact hbacked.mono (Finset.inter_subset_right.trans hsub)
      · exact (hsupported other hother).mono hsub
    · intro other hother
      rw [hactivated, Finset.mem_insert] at hother
      rcases hother with rfl | hother
      · exact Or.inr havailable
      · exact hwithin other hother
    · rw [hsteps]
      apply attempts_append hattempts
      rw [← hlogged]
      exact hbacked
    · intro other hotherAvailable hother
      rw [hactivated, Finset.mem_insert] at hother
      rcases hother with rfl | hother
      · exact hbacked.mono (Finset.inter_subset_inter_left hsub)
      · exact (hexposed other hotherAvailable hother).mono (Finset.inter_subset_inter_left hsub)
  · have hattempt := attempts_append hattempts (capabilityId, .attempted call.now (call.ends capabilityId))
      (by rw [← hlogged]; exact hbacked)
    refine ⟨⟨?_, ?_⟩, ?_, ?_, ?_, ?_⟩
    · rcases hsteps with hsteps | hsteps
      · rw [hactivated, hsteps, activatedBy_append, hsucceeds, Finset.union_empty]
        exact hlogged
      · rw [hactivated, hsteps, activatedBy_append, activatedBy_append, hsucceeds,
          Finset.union_empty, hlogged]
        exact (Finset.union_empty _).symm
    · rw [hactivated]
      exact hsupported
    · rw [hactivated]
      exact hgrows
    · rw [hactivated]
      exact hwithin
    · rcases hsteps with hsteps | hsteps
      · rw [hsteps]
        exact hattempt
      · intro before other now ends after hsplit
        rw [hsteps] at hsplit
        rcases append_singleton_eq_append_cons hsplit with ⟨-, hsame, -⟩ | ⟨after', -, hbefore⟩
        · cases hsame
        · exact hattempt before other now ends after' hbefore
    · rw [hactivated]
      exact hexposed

/-- A round keeps the course. -/
theorem activateAll {ids : List CapabilityId} (h : Refreshing services call start activator)
    (hbacked : ∀ capabilityId ∈ ids, capabilityId ∈ call.available
      ∧ Backed services (call.available ∩ activator.activated) capabilityId) :
  Refreshing services call start (Activator.activateAll call ids activator).2
  := by
  induction ids generalizing activator with
  | nil => exact h
  | cons first ids ih =>
      obtain ⟨⟨havailable, hfirst⟩, hrest⟩ := List.forall_mem_cons.mp hbacked
      have hactivated := h.activate havailable hfirst
      have hsub : activator.activated ⊆ (activator.activate call first).2.activated := by
        rcases activate_cases services call activator first with ⟨hsame, -⟩ | ⟨hsame, -⟩
        · rw [hsame]
          exact Finset.subset_insert _ _
        · rw [hsame]
      rw [Activator.activateAll]
      split
      · rename_i activator' hactivate
        rw [hactivate] at hactivated
        exact hactivated
      · rename_i activator' hactivate
        rw [hactivate] at hactivated hsub
        apply ih hactivated
        intro capabilityId hmem
        obtain ⟨hmemAvailable, hmemBacked⟩ := hrest capabilityId hmem
        exact ⟨hmemAvailable, hmemBacked.mono (Finset.inter_subset_inter_left hsub)⟩

/-- The loop keeps the course. -/
theorem activatePending (hkeeps : KeepsBases services start call) {rounds : ℕ}
    {pending : List CapabilityId} (h : Refreshing services call start activator)
    (hpending : ∀ capabilityId ∈ pending, capabilityId ∈ call.available
      ∧ start.mayAttempt capabilityId call.now = true)
    {ended : Bool × Activator}
    (hended : Activator.activatePending call rounds pending activator = some ended) :
  Refreshing services call start ended.2
  := by
  induction rounds generalizing pending activator with
  | zero => cases hended
  | succ rounds ih =>
      have hround : Refreshing services call start (Activator.activateAll call
          (pending.filter (activator.isReady services)) activator).2 := by
        apply h.activateAll
        intro capabilityId hmem
        obtain ⟨hmemPending, hready⟩ := List.mem_filter.mp hmem
        obtain ⟨havailable, hmay⟩ := hpending capabilityId hmemPending
        use havailable
        intro capability hget required hrequired
        obtain ⟨baseId, hbase, hprovides⟩ :=
          backed_of_isReady hready capability hget required hrequired
        -- A base that is not available was activated before, and then another one is available.
        rcases h.within baseId hbase with hstart | hbaseAvailable
        · obtain ⟨baseId', hbase', hprovides'⟩ := hkeeps capabilityId havailable (Or.inr hmay)
            capability hget required hrequired ⟨baseId, hstart, hprovides⟩
          exact ⟨baseId', Finset.inter_subset_inter_left h.grows hbase', hprovides'⟩
        · exact ⟨baseId, Finset.mem_inter.mpr ⟨hbaseAvailable, hbase⟩, hprovides⟩
      rw [Activator.activatePending] at hended
      split at hended
      · cases hended
        exact h
      · split at hended
        · rename_i activator' hactivate
          rw [hactivate] at hround
          cases hended
          exact hround
        · rename_i activator' hactivate
          rw [hactivate] at hround
          apply ih hround _ hended
          intro capabilityId hmem
          exact hpending capabilityId (List.mem_of_mem_filter hmem)

/-- A refresh starts out on its course. -/
theorem initial (hsupported : Supported services activator)
    (hkeeps : KeepsBases services activator call) :
  Refreshing services call activator activator
  := by
  refine ⟨hsupported, Finset.Subset.refl _, fun _ => Or.inl, ?_, ?_⟩
  · intro before capabilityId now ends after hsplit hlength
    rw [hsplit, List.length_append, List.length_cons] at hlength
    omega
  · intro capabilityId havailable hactivated capability hget required hrequired
    exact hkeeps capabilityId havailable (Or.inl hactivated) capability hget required hrequired
      (hsupported.supported capabilityId hactivated capability hget required hrequired)

/-- A refresh that no revocation deprived of a base keeps its course to the end. -/
theorem refresh (hsupported : Supported services activator)
    (hkeeps : KeepsBases services activator call) {view : Option CapabilityView}
    (hrefresh : activator.refresh call = some (view, activator')) :
  Refreshing services call activator activator'
    ∧ ∀ exposed ∈ view, exposed.available = call.available ∩ activator'.activated
  := by
  have hpending : ∀ capabilityId ∈ activator.pending call,
      capabilityId ∈ call.available
        ∧ activator.mayAttempt capabilityId call.now = true := by
    intro capabilityId hmem
    obtain ⟨horder, hmay⟩ := List.mem_filter.mp hmem
    exact ⟨RefreshCall.mem_order_iff.mp horder, (Bool.and_eq_true_iff.mp hmay).2⟩
  rw [Activator.refresh] at hrefresh
  split at hrefresh
  · cases hrefresh
  · rename_i ended hended
    cases hrefresh
    exact ⟨(initial hsupported hkeeps).activatePending hkeeps hpending hended, (by intros; contradiction)⟩
  · rename_i ended hended
    cases hrefresh
    use (initial hsupported hkeeps).activatePending hkeeps hpending hended
    rintro exposed ⟨⟩
    rfl

end Refreshing

omit [DecidableEq C] in
/-- Nothing was activated at the start. -/
theorem supported_initial (services : ActivatorServices P C O) :
  Supported services .initial
  := ⟨rfl, nofun⟩

/-- As long as no revocation takes the last activated provider of what an available capability
requires, every view is closed under `requires`, and every attempt finds the bases available and
activated. -/
theorem view_closed_of_keepsBases (services : ActivatorServices P C O) {calls : List (RefreshCall services)}
    (hkeeps : TransitionSystem.Always (refreshStep services) (KeepsBases services) .initial calls)
    {taken rest : List (RefreshCall services)} {call : RefreshCall services} (hsplit : calls = taken ++ call :: rest)
    {activator activator' : Activator} {view : Option CapabilityView}
    (hrun : TransitionSystem.run (refreshStep services) .initial taken = some activator)
    (hrefresh : activator.refresh call = some (view, activator')) :
  (∀ exposed ∈ view, ∀ capabilityId ∈ exposed.available,
      Backed services exposed.available capabilityId)
    ∧ ∀ before capabilityId now ends after,
      activator'.steps = before ++ (capabilityId, .attempted now ends) :: after →
      activator.steps.length ≤ before.length →
      Backed services (call.available ∩ activatedBy before) capabilityId
  := by
  have hsupported : Supported services activator := by
    rw [hsplit] at hkeeps
    apply TransitionSystem.run_invariant_of_always _ (supported_initial services)
      (TransitionSystem.always_prefix hkeeps) hrun
    intro activator call activator' hsupported hkept hstep
    rw [refreshStep, Option.map_eq_some_iff] at hstep
    obtain ⟨⟨view, ended⟩, hended, rfl⟩ := hstep
    exact (Refreshing.refresh hsupported hkept hended).1.supported
  obtain ⟨hrefreshing, hview⟩ :=
    Refreshing.refresh hsupported (hkeeps taken call rest hsplit activator hrun) hrefresh
  refine ⟨?_, hrefreshing.attempts⟩
  intro exposed hexposed capabilityId hmem
  rw [hview exposed hexposed] at hmem ⊢
  obtain ⟨havailable, hactivated⟩ := Finset.mem_inter.mp hmem
  exact hrefreshing.exposed capabilityId havailable hactivated

end Activator

/-! ### Two providers of one base -/

/-- A layer over a base that two capabilities provide. -/
def twoProviders : ActivatorServices Unit String Unit where
  declarations :=
    { dataPoints := .flat Unit
      abstractTypes := ∅
      registeredLeaves := []
      capabilities :=
        { issubclass := fun a b => decide (a = b ∨ b = "base" ∧ a ≠ "layer")
          issubclass_refl := fun a => decide_eq_true (Or.inl rfl)
          issubclass_trans := by
            intro a b c hab hbc
            rw [decide_eq_true_eq] at hab hbc ⊢
            rcases hab with rfl | ⟨rfl, ha⟩
            · exact hbc
            · rcases hbc with rfl | ⟨rfl, -⟩
              · exact Or.inr ⟨rfl, ha⟩
              · exact Or.inr ⟨rfl, ha⟩ }
      capabilityId := id
      capabilityDependsOn := fun _ => ∅
      capabilityRequires := fun capability => if capability = "layer" then {"base"} else ∅
      operatorId := fun _ => "operator"
      dependsOn := fun _ => ∅
      uses := fun _ => ∅
      produces := fun _ => ∅
      requires := fun _ => ∅
      aggregator := fun _ => none }
  registered := ⟨[("first", "first"), ("second", "second"), ("layer", "layer")], by decide⟩
  maxAttempts := 1
  maxAttempts_pos := Nat.one_pos
  backoffDelays := fun _ _ => 0

/-- A refresh in which a provider and the layer are permitted; the activation of the second provider
fails. -/
def permitting (provider : CapabilityId) (h : provider = "first" ∨ provider = "second") :
    RefreshCall twoProviders where
  present := ∅
  permitted := {provider, "layer"}
  preference := []
  now := 0
  order := [provider, "layer"]
  nodup_order := by
    rcases h with rfl | rfl
    · decide
    · decide
  toFinset_order := by
    rcases h with rfl | rfl
    · decide
    · decide
  ends := fun capabilityId => if capabilityId = "second" then .failed 0 else .succeeded
  terminalRaises := fun _ => false

/-- The first provider is activated, and the layer with it. -/
def firstPermitted : RefreshCall twoProviders := permitting "first" (Or.inl rfl)

/-- The second provider takes the place of the first, and fails. -/
def secondPermitted : RefreshCall twoProviders := permitting "second" (Or.inr rfl)

/-- The layer is exposed, and nothing that provides its base. -/
theorem exposed_without_base :
  ¬∀ activator activator' view,
    TransitionSystem.run (Activator.refreshStep twoProviders) .initial [firstPermitted]
      = some activator →
    activator.refresh secondPermitted = some (some view, activator') →
    ∀ capabilityId ∈ view.available,
      Activator.Backed twoProviders view.available capabilityId
  := by
  intro h
  obtain ⟨activator, activator', view, hrun, hrefresh, hview⟩ : ∃ activator activator' view,
      TransitionSystem.run (Activator.refreshStep twoProviders) .initial [firstPermitted]
          = some activator
        ∧ activator.refresh secondPermitted = some (some view, activator')
        ∧ view.available = {"layer"} := ⟨_, _, _, rfl, rfl, rfl⟩
  have hbacked := h activator activator' view hrun hrefresh
  rw [hview] at hbacked
  obtain ⟨baseId, hbase, base, hget, hbelow⟩ := hbacked "layer" (Finset.mem_singleton_self _)
    "layer" rfl "base" (Finset.mem_singleton_self _)
  rw [Finset.mem_singleton.mp hbase] at hget
  cases hget
  revert hbelow
  decide

/-- The second provider comes to the first, and fails. -/
def bothPermitted : RefreshCall twoProviders where
  present := ∅
  permitted := {"first", "second", "layer"}
  preference := []
  now := 0
  order := ["first", "second", "layer"]
  nodup_order := by decide
  toFinset_order := by decide
  ends := fun capabilityId => if capabilityId = "second" then .failed 0 else .succeeded
  terminalRaises := fun _ => false

/-- Where nothing was revoked, the view is closed: the layer keeps the base that it was activated
over, and the second provider is not exposed. -/
theorem view_closed_grown :
  ∃ activator activator' view, Activator.refreshStep twoProviders .initial firstPermitted
      = some activator
    ∧ activator.refresh bothPermitted = some (some view, activator')
    ∧ view.available = {"layer", "first"}
    ∧ ∀ capabilityId ∈ view.available,
      Activator.Backed twoProviders view.available capabilityId
  := by
  obtain ⟨activator, activator', view, hstep, hactivated, hrefresh, hview⟩ :
      ∃ activator activator' view,
        Activator.refreshStep twoProviders .initial firstPermitted = some activator
          ∧ activator.activated ⊆ bothPermitted.available
          ∧ activator.refresh bothPermitted = some (some view, activator')
          ∧ view.available = {"layer", "first"} := ⟨_, _, _, rfl, by decide, rfl, rfl⟩
  have hstep' : Activator.refreshStep twoProviders activator bothPermitted = some activator' := by
    rw [Activator.refreshStep, hrefresh]
    rfl
  have hkept : Activator.KeepsBases twoProviders .initial firstPermitted := by
    rintro capabilityId - - capability - required - ⟨baseId, hbase, -⟩
    cases hbase
  have hkept' : Activator.KeepsBases twoProviders activator bothPermitted := by
    rintro capabilityId - - capability - required - ⟨baseId, hbase, hprovides⟩
    use baseId, Finset.mem_inter.mpr ⟨hactivated hbase, hbase⟩
  have hkeeps : TransitionSystem.Always (Activator.refreshStep twoProviders)
      (Activator.KeepsBases twoProviders) .initial [firstPermitted, bothPermitted] := by
    rw [TransitionSystem.always_cons_of_some hstep, TransitionSystem.always_cons_of_some hstep']
    use hkept, hkept', TransitionSystem.always_nil
  have hrun : TransitionSystem.run (Activator.refreshStep twoProviders) .initial [firstPermitted]
      = some activator := TransitionSystem.run_cons_eq_some.mpr ⟨activator, hstep, rfl⟩
  obtain ⟨hclosed, -⟩ := Activator.view_closed_of_keepsBases twoProviders hkeeps
    (rfl : [firstPermitted, bothPermitted] = [firstPermitted] ++ bothPermitted :: []) hrun hrefresh
  use activator, activator', view, hstep, hrefresh, hview
  apply hclosed view rfl

end Orcastork
