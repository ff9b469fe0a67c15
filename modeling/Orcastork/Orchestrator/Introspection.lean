import Orcastork.Adapters.Memory.Inbox
import Orcastork.Capabilities.Activation
import Orcastork.Flow.Drift
import Orcastork.Graph.CircuitCaps
import Orcastork.Orchestrator.Redrives
import Orcastork.Orchestrator.Triggers

/-!
# Introspection

`describe_session` tells from what a session has persisted, and from its flow, which operators have
not run, which of them are ready, and which the namespace excludes. A resume of the session works
from the same state, but drops the operators whose output nothing consumes, builds a breaker for
those on a cycle, and has no pass at all once the session's deadline is over; so its first pass
launches what the description leads to expect if and only if, where an operator is expected, there
is time left, and no operator that is expected is dropped or has a cap that leaves it no run
(`describeSession_agrees_iff`).
-/

namespace Orcastork

/-! ### The first refresh -/

namespace Activator

variable {P C O : Type} [DecidableEq C] {services : ActivatorServices P C O}
  {call : RefreshCall services} {activator : Activator}

/-- A round in which every activation succeeds. -/
theorem activateAll_of_succeed (hends : ∀ capabilityId, call.ends capabilityId = .succeeded)
    (ids : List CapabilityId) :
  ∃ activator', activateAll call ids activator = (true, activator')
    ∧ activator'.activated = activator.activated ∪ ids.toFinset
  := by
  induction ids generalizing activator with
  | nil =>
      use activator, rfl
      rw [List.toFinset_nil, Finset.union_empty]
  | cons capabilityId ids ih =>
      rw [activateAll, activate, hends]
      dsimp only
      obtain ⟨activator', hrest, hactivated⟩ := @ih
        { activator.log capabilityId (.attempted call.now .succeeded) with
          failures := (activator.log capabilityId
            (.attempted call.now .succeeded)).failures.erase capabilityId
          activated := insert capabilityId (activator.log capabilityId
            (.attempted call.now .succeeded)).activated }
      use activator', hrest
      rw [hactivated, List.toFinset_cons, Finset.insert_union, Finset.union_insert]
      rfl

/-- What is available is activated, if nothing that is left of it is ready. -/
theorem available_subset_of_not_ready {pending : List CapabilityId}
    (hsub : activator.activated ⊆ call.available)
    (hcover : ∀ capabilityId ∈ call.available,
      capabilityId ∈ activator.activated ∨ capabilityId ∈ pending)
    (hready : ∀ capabilityId ∈ pending, activator.isReady services capabilityId = false) :
  call.available ⊆ activator.activated
  := by
  intro capabilityId havailable
  have hstep : ∀ capabilityId capability,
      services.registered.get? capabilityId = some capability → capabilityId ∈ call.permitted →
      services.declarations.depsPresent
        (services.declarations.capabilityDependsOn capability) call.present = true →
      (∀ required ∈ services.declarations.capabilityRequires capability, ∃ baseId base,
        services.registered.get? baseId = some base ∧ baseId ∈ activator.activated
          ∧ services.declarations.capabilities.issubclass base required = true) →
      capabilityId ∈ activator.activated := by
    intro capabilityId capability hget hpermitted hdeps hbases
    have hrequires : ∀ {ids : Finset CapabilityId}, activator.activated ⊆ ids →
        services.declarations.requiresAvailable
          (services.declarations.capabilityRequires capability) ids services.registered = true := by
      intro ids hids
      rw [Declarations.requiresAvailable_iff]
      intro required hrequired
      obtain ⟨baseId, base, hbaseGet, hbase, hbelow⟩ := hbases required hrequired
      use base, Declarations.mem_typesOf_iff.mpr ⟨baseId, hids hbase, hbaseGet⟩
    have hmem : capabilityId ∈ call.available :=
      Declarations.mem_computeAvailable hget hpermitted hdeps (hrequires hsub)
    rcases hcover capabilityId hmem with hactivated | hpending
    · apply hactivated
    · -- its bases are activated, so it is ready
      have hnot := hready capabilityId hpending
      rw [isReady, hget] at hnot
      cases hnot.symm.trans (hrequires (Finset.Subset.refl _))
  obtain ⟨-, -, hactivated⟩ := Declarations.computeAvailable_induction
    (fun capabilityId _ => capabilityId ∈ activator.activated) hstep havailable
  apply hactivated

/-- The loop activates what is available, if every activation succeeds. -/
theorem activatePending_of_succeed (hends : ∀ capabilityId, call.ends capabilityId = .succeeded)
    {rounds : ℕ} {pending : List CapabilityId} (hrounds : pending.length < rounds)
    (hsub : activator.activated ⊆ call.available)
    (hpending : ∀ capabilityId ∈ pending, capabilityId ∈ call.available)
    (hcover : ∀ capabilityId ∈ call.available,
      capabilityId ∈ activator.activated ∨ capabilityId ∈ pending) :
  ∃ activator', activatePending call rounds pending activator = some (true, activator')
    ∧ activator'.activated = call.available
  := by
  induction rounds generalizing pending activator with
  | zero => cases hrounds
  | succ rounds ih =>
      rw [activatePending]
      split
      · rename_i hempty
        use activator, rfl
        apply Finset.Subset.antisymm hsub
        apply available_subset_of_not_ready hsub hcover
        intro capabilityId hmem
        rw [List.isEmpty_iff, List.filter_eq_nil_iff] at hempty
        rw [← Bool.not_eq_true]
        apply hempty capabilityId hmem
      · rename_i hsome
        obtain ⟨activator', hround, hactivated⟩ := @activateAll_of_succeed P C O _ services call
          activator hends (pending.filter (activator.isReady services))
        rw [hround]
        dsimp only
        apply ih
        · apply Nat.lt_of_lt_of_le _ (Nat.le_of_lt_succ hrounds)
          apply List.length_filter_lt_length_iff_exists.mpr
          rw [List.isEmpty_iff] at hsome
          obtain ⟨capabilityId, hmem⟩ := List.exists_mem_of_ne_nil _ hsome
          use capabilityId, List.mem_of_mem_filter hmem
          rw [decide_eq_true_eq, not_not]
          apply hmem
        · rw [hactivated]
          apply Finset.union_subset hsub
          intro capabilityId hmem
          apply hpending capabilityId (List.mem_of_mem_filter (List.mem_toFinset.mp hmem))
        · intro capabilityId hmem
          apply hpending capabilityId (List.mem_of_mem_filter hmem)
        · intro capabilityId hmem
          rw [hactivated, Finset.mem_union, List.mem_toFinset]
          rcases hcover capabilityId hmem with hold | hleft
          · left
            left
            apply hold
          · by_cases hnow : capabilityId ∈ pending.filter (activator.isReady services)
            · left
              right
              apply hnow
            · right
              apply List.mem_filter.mpr ⟨hleft, decide_eq_true hnow⟩

/-- The first refresh exposes what is available, if every activation succeeds. -/
theorem refresh_of_succeed (hends : ∀ capabilityId, call.ends capabilityId = .succeeded) :
  ∃ view activator', initial.refresh call = some (some view, activator')
    ∧ view.available = call.available
  := by
  have hpending : ∀ capabilityId, capabilityId ∈ initial.pending call
      ↔ capabilityId ∈ call.available := by
    intro capabilityId
    rw [pending, List.mem_filter, RefreshCall.mem_order_iff]
    apply and_iff_left
    rfl
  obtain ⟨activator', hloop, hactivated⟩ := @activatePending_of_succeed P C O _ services call
    initial hends _ (initial.pending call) (Nat.lt_succ_self _) (Finset.empty_subset _)
    (fun capabilityId hmem => (hpending capabilityId).mp hmem)
    (fun capabilityId hmem => Or.inr ((hpending capabilityId).mpr hmem))
  rw [refresh, hloop]
  refine ⟨_, activator', rfl, ?_⟩
  rw [hactivated, Finset.inter_self]

end Activator

/-! ### The description -/

/-- The `__name__` of the classes. -/
structure ClassNames (P C : Type) where
  dataPoint : P → String
  capability : C → String

/-- What the catalog permits a namespace. -/
structure NamespacePermissions where
  capabilities : Finset CapabilityId
  /-- Nothing if all operators are permitted. -/
  operators : Option (Finset OperatorId)

/-- An operator is not among those that are permitted. -/
def NamespacePermissions.gates (permissions : NamespacePermissions) (operatorId : OperatorId) :
    Bool :=
  match permissions.operators with
  | none => false
  | some permitted => decide (operatorId ∉ permitted)

/-- What a session has persisted. -/
structure PersistedSession where
  store : SessionState
  wellFormed : store.WellFormed
  audit : AuditState
  archive : ArchiveState
  isComplete : Bool
  isHeld : Bool
  currentEpoch : Epoch
  /-- What the store has accepted is an epoch of the lock. -/
  minted : store.maxEpoch ≤ currentEpoch
  pendingCount : ℕ
  quarantined : List QuarantinedEntry
  isContributionMarked : OperatorId → Bool

/-- `OperatorState`. -/
structure OperatorState where
  operatorId : OperatorId
  hasRun : Bool
  watermark : Option Revision
  isReadyNow : Bool
  missingDataPoints : List String
  missingCapabilities : List String
  isGated : Bool
  /-- Nothing for an operator that is no aggregator. -/
  contributionMarked : Option Bool
  deriving DecidableEq, Repr

/-- `SessionDescription`. -/
structure SessionDescription where
  sessionId : SessionId
  namespaceId : String
  flowName : String
  isComplete : Bool
  isOwned : Bool
  currentEpoch : Epoch
  revision : Revision
  deadline : Option Timestamp
  storedFlowFingerprint : Option String
  fingerprintMatches : Bool
  pendingInbox : ℕ
  quarantined : List QuarantinedEntry
  presentTypes : Dict String ℕ
  operators : List OperatorState

namespace GatherServices

variable {P C O : Type} [DecidableEq P] [DecidableEq C] (services : GatherServices P C O)

section

variable (names : ClassNames P C) (permissions : NamespacePermissions)
  (persisted : PersistedSession)

/-- The capabilities of the flow by id. -/
def registeredCapabilities : Dict CapabilityId C :=
  services.declarations.registered services.flow.capabilities

/-- `_missing_data_points`. -/
def missingDataPoints (operator : O) (present : Finset P) : List String :=
  (((services.flow.dependsOn operator).filter (fun required =>
    ¬services.declarations.satisfies present required = true)).val.map names.dataPoint).sort (· ≤ ·)

/-- `_missing_capabilities`. -/
def missingCapabilities (operator : O) (available : Finset C) : List String :=
  (((services.flow.requires operator).filter (fun required =>
    ¬∃ capability ∈ available,
      services.declarations.capabilities.issubclass capability required = true)).val.map
    names.capability).sort (· ≤ ·)

/-- The state of an operator in `describe_session`. -/
def describeOperator (present : Finset P) (available : Finset C) (operator : O) : OperatorState :=
  let operatorId := services.operatorId operator
  let watermark := persisted.store.getWatermark operatorId
  { operatorId := operatorId
    hasRun := watermark.isSome
    watermark := watermark
    isReadyNow := services.declarations.isReady operator present available
    missingDataPoints := services.missingDataPoints names operator present
    missingCapabilities := services.missingCapabilities names operator available
    isGated := permissions.gates operatorId
    contributionMarked :=
      if services.declarations.isAggregator operator then
        some (persisted.isContributionMarked operatorId)
      else
        none }

/-- How many DataPoints there are of each class, by its name. -/
def presentCounts (view : DataPointView) : Dict String ℕ :=
  view.foldl (fun counts dataPoint =>
    let name := names.dataPoint (services.leafClass dataPoint.type)
    counts.set name ((counts.get? name).getD 0 + 1)) .empty

/-- `describe_session`. -/
def describeSession (namespaceId flowName : String) : SessionDescription :=
  let view := persisted.store.snapshot
  let present := services.presentTypes view
  let available := Declarations.typesOf services.registeredCapabilities
    (services.declarations.computeAvailable services.registeredCapabilities
      permissions.capabilities present)
  let fingerprint := services.flow.fingerprint services.classes services.merging.sealing.sha256
  { sessionId := services.merging.sealing.sessionId
    namespaceId := namespaceId
    flowName := flowName
    isComplete := persisted.isComplete
    isOwned := persisted.isHeld
    currentEpoch := persisted.currentEpoch
    revision := persisted.store.revision
    deadline := persisted.store.deadline
    storedFlowFingerprint := persisted.store.flowFingerprint
    fingerprintMatches :=
      match persisted.store.flowFingerprint with
      | none => true
      | some stored => decide (stored = fingerprint)
    pendingInbox := persisted.pendingCount
    quarantined := persisted.quarantined
    presentTypes := services.presentCounts names view
    operators := services.flow.operators.map
      (services.describeOperator names permissions persisted present available) }

end

end GatherServices

/-- The operators that are described as not run, ready now and not gated, and that are no
aggregators. -/
def SessionDescription.expected (description : SessionDescription) : List OperatorId :=
  (description.operators.filter (fun state =>
    !state.hasRun && state.isReadyNow && !state.isGated && state.contributionMarked.isNone)).map
    OperatorState.operatorId

/-! ### The resume -/

namespace GatherServices

variable {P C O : Type} [DecidableEq P] [DecidableEq C] [DecidableEq O]
  (services : GatherServices P C O) (permissions : NamespacePermissions)
  (persisted : PersistedSession)

/-- What a resume of a session works from: the constructor prunes the operators to gather, and
`_exclude_unpermitted_operators` drops those that are gated. -/
def resumed : GatherServices P C O :=
  { services with
    gathering := (services.flow.gathering services.classes).filter (fun operator =>
      !permissions.gates (services.operatorId operator)) }

/-- The graph of the operators to gather. -/
def resumedGraph : Dict (Node C O) (List (Node C O)) :=
  services.declarations.adjacency (services.resumed permissions).gathering services.flow.capabilities

/-- The caps of its breaker. -/
def resumedCaps : Dict OperatorId ℤ :=
  circuitCaps services.operatorId (fun operator => (services.flow.policy operator).maxCycles)
    (services.resumed permissions).gathering (services.resumedGraph permissions)

/-- How a resume begins to gather. -/
structure ResumeCall where
  /-- `session_deadline` of the flow. -/
  sessionDeadline : Monotonic
  /-- It re-opens the session. -/
  freshDeadline : Bool
  /-- The clocks when `_gather` begins. -/
  now : Monotonic
  wallClock : Timestamp
  /-- What goes by until the deadline is looked at. -/
  elapsed : ℕ

/-- The budget of a resume, which has acquired the next epoch, and the store it leaves. -/
def resumedBudget (resume : ResumeCall) : Except OrchestrationError (Monotonic × SessionState) :=
  persisted.store.remainingSessionBudget resume.sessionDeadline resume.freshDeadline
    resume.wallClock (persisted.currentEpoch + 1)

/-- The session as a resume finds it, with the store its budget leaves. -/
def resumedState (store : SessionState) : MergeState where
  mirror := .initial services.merging.sealing.sessionId
  store := store
  audit := persisted.audit
  archive := persisted.archive
  coalescedAudits := .empty
  reobservedAudits := .empty

/-- What the activator of a resume is made with. -/
def activatorServices (maxAttempts : ℕ) (hpos : 0 < maxAttempts)
    (backoffDelays : CapabilityId → ℕ → Monotonic) : ActivatorServices P C O where
  declarations := services.declarations
  registered := services.registeredCapabilities
  maxAttempts := maxAttempts
  maxAttempts_pos := hpos
  backoffDelays := backoffDelays

/-- The operators that a plan launches for the first time, the aggregators apart. -/
def firstRuns (plan : GatherPlan O) : List OperatorId :=
  (plan.runnable.filter (fun runnable =>
    !runnable.isRerun && !runnable.isRetry
      && !services.declarations.isAggregator runnable.operator)).map
    (fun runnable => services.operatorId runnable.operator)

/-- What a resume launches for the first time in its first pass, from the look at its deadline on:
nothing if the gather loop is not entered. The inbox is empty. -/
def firstLaunches {maxAttempts : ℕ} {hpos : 0 < maxAttempts}
    {backoffDelays : CapabilityId → ℕ → Monotonic}
    (call : RefreshCall (services.activatorServices maxAttempts hpos backoffDelays))
    (gather : Gather O) : Option (List OperatorId) :=
  match gather.phase with
  | .draining .deadline => some []
  | _ => do
    let gather ← gather.step (services.resumed permissions) (.inboxDone none)
    let snapshot ← (gather.state.mirror.snapshot gather.state.mirror.sessionId).toOption
    let (refreshed, _) ← Activator.initial.refresh call
    let view ← refreshed
    let plan ← ((services.resumed permissions).plan gather.state.mirror gather.memory snapshot
      view.available gather.now).toOption
    return services.firstRuns plan

/-! ### What is expected -/

/-- An operator is described as not run, ready now and not gated, and is no aggregator. -/
structure Expected (operator : O) : Prop where
  listed : operator ∈ services.flow.operators
  unrun : persisted.store.getWatermark (services.operatorId operator) = none
  ready : services.declarations.isReady operator
    (services.presentTypes persisted.store.snapshot)
    (services.availableTypes (services.declarations.computeAvailable services.registeredCapabilities
      permissions.capabilities (services.presentTypes persisted.store.snapshot))) = true
  ungated : permissions.gates (services.operatorId operator) = false
  operator : services.declarations.isAggregator operator = false

/-- An operator is on a cycle of those to gather, and its cap leaves it no run. -/
def CappedOut (operator : O) : Prop :=
  Relation.TransGen (Edge (services.resumedGraph permissions)) (Node.operator operator)
      (Node.operator operator)
    ∧ ∃ cap ≤ 0, (services.flow.policy operator).maxCycles = some cap

variable {services permissions persisted}

omit [DecidableEq O] in
theorem mem_expected_iff {names : ClassNames P C} {namespaceId flowName : String}
    {operatorId : OperatorId} :
  operatorId ∈ (services.describeSession names permissions persisted namespaceId flowName).expected
    ↔ ∃ operator, services.Expected permissions persisted operator
      ∧ services.operatorId operator = operatorId
  := by
  rw [SessionDescription.expected, describeSession]
  dsimp only
  rw [List.mem_map]
  simp only [List.mem_filter, List.mem_map, Bool.and_eq_true, Bool.not_eq_true']
  constructor
  · rintro ⟨_, ⟨⟨operator, hlisted, rfl⟩, ⟨⟨hunrun, hready⟩, hungated⟩, hoperator⟩, rfl⟩
    refine ⟨operator, ⟨hlisted, ?_, hready, hungated, ?_⟩, rfl⟩
    · apply Option.not_isSome_iff_eq_none.mp
      rw [Bool.not_eq_true]
      apply hunrun
    · rw [describeOperator] at hoperator
      dsimp only at hoperator
      split at hoperator
      · cases hoperator
      · rename_i hnot
        rw [← Bool.not_eq_true]
        apply hnot
  · rintro ⟨operator, h, rfl⟩
    refine ⟨_, ⟨⟨operator, h.listed, rfl⟩, ⟨⟨?_, h.ready⟩, h.ungated⟩, ?_⟩, rfl⟩
    · rw [describeOperator]
      dsimp only
      rw [h.unrun]
      rfl
    · rw [describeOperator]
      dsimp only
      rw [h.operator]
      rfl

/-! ### First runs -/

section

variable {mirror : SessionStateMirror} {memory : OperatorMemory} {view : DataPointView}
  {available : Finset CapabilityId} {now : Monotonic} {plan plan' : GatherPlan O} {operator : O}

/-- A launch is a rerun exactly if it is no retry and its operator has run. -/
def RerunsOnly (services : GatherServices P C O) (memory : OperatorMemory)
    (plan : GatherPlan O) : Prop :=
  ∀ runnable ∈ plan.runnable,
    runnable.isRerun = (!runnable.isRetry && services.hasRun memory runnable.operator)

omit [DecidableEq P] [DecidableEq C] [DecidableEq O] in
theorem RerunsOnly.launching (h : services.RerunsOnly memory plan) {runnable : Runnable O}
    (hrunnable : runnable.isRerun
      = (!runnable.isRetry && services.hasRun memory runnable.operator)) :
  services.RerunsOnly memory (plan.launching runnable)
  := by
  intro other hmem
  rcases List.mem_append.mp hmem with hmem | hmem
  · apply h other hmem
  · rw [List.mem_singleton.mp hmem]
    apply hrunnable

omit [DecidableEq P] [DecidableEq C] [DecidableEq O] in
theorem RerunsOnly.of_runnable_eq (h : services.RerunsOnly memory plan)
    (hsame : plan'.runnable = plan.runnable) :
  services.RerunsOnly memory plan'
  := by
  rw [RerunsOnly, hsame]
  apply h

omit [DecidableEq O] in
theorem RerunsOnly.planOperator (h : services.RerunsOnly memory plan)
    (hplan : services.planOperator mirror memory view available now plan operator = .ok plan') :
  services.RerunsOnly memory plan'
  := by
  rw [GatherServices.planOperator] at hplan
  split at hplan
  · cases hplan
    apply h
  · split at hplan
    · cases hplan
      apply h
    · rw [planIdle] at hplan
      generalize hpending : (if services.hasRun memory operator = true then plan
        else plan.pending operator) = pending at hplan
      have hkept : services.RerunsOnly memory pending := by
        apply h.of_runnable_eq
        rw [← hpending]
        split
        · rfl
        · rfl
      split at hplan
      · cases hplan
        apply hkept
      · split at hplan
        · split at hplan
          · obtain ⟨delta, -, rfl⟩ := planLaunch_eq_ok hplan
            apply hkept.launching
            rfl
          · cases hplan
            apply hkept.of_runnable_eq (runnable_dueBy _)
        · split at hplan
          · rename_i hfirst
            rw [Bool.not_eq_true'] at hfirst
            obtain ⟨delta, -, rfl⟩ := planLaunch_eq_ok hplan
            apply hkept.launching
            rw [hfirst]
            rfl
          · rename_i hran
            rw [Bool.not_eq_true', Bool.not_eq_false] at hran
            rcases planRerun_runnable hplan with hnone | ⟨delta, -, hone⟩
            · apply hkept.of_runnable_eq hnone
            · intro other hmem
              rw [hone] at hmem
              apply hkept.launching _ other hmem
              rw [hran]
              rfl

omit [DecidableEq O] in
theorem rerunsOnly_planAll {operators : List O} (h : services.RerunsOnly memory plan)
    (hplan : services.planAll mirror memory view available now operators plan = .ok plan') :
  services.RerunsOnly memory plan'
  := by
  induction operators generalizing plan with
  | nil =>
      cases hplan
      apply h
  | cons operator operators ih =>
      rw [planAll] at hplan
      split at hplan
      · cases hplan
      · rename_i next hnext
        apply ih (h.planOperator hnext) hplan

omit [DecidableEq O] in
/-- The first runs of a plan, where no retry is armed: the operators that are open and have not
run. -/
theorem mem_firstRuns_iff (hretries : memory.retries = .initial)
    (hplan : services.plan mirror memory view available now = .ok plan) {operatorId : OperatorId} :
  operatorId ∈ services.firstRuns plan
    ↔ ∃ operator ∈ services.gathering, services.isOpen memory view available operator = true
      ∧ services.hasRun memory operator = false
      ∧ services.declarations.isAggregator operator = false
      ∧ services.operatorId operator = operatorId
  := by
  have hunarmed : ∀ other, memory.retries.isScheduled other = false := by
    intro other
    rw [hretries]
    rfl
  have hreruns : services.RerunsOnly memory plan := by
    apply rerunsOnly_planAll _ hplan
    intro runnable hmem
    cases hmem
  have hfilter := runnable_eq_filter hplan
  rw [firstRuns, List.mem_map]
  simp only [List.mem_filter, Bool.and_eq_true, Bool.not_eq_true']
  constructor
  · rintro ⟨runnable, ⟨hmem, ⟨hrerun, hretry⟩, hoperator⟩, rfl⟩
    have hdue : runnable.operator
        ∈ services.gathering.filter (services.isDue mirror memory view available now) := by
      rw [← hfilter]
      apply List.mem_map_of_mem hmem
    obtain ⟨hgathers, hdue⟩ := List.mem_filter.mp hdue
    rw [isDue, Bool.and_eq_true] at hdue
    have hunrun := hreruns runnable hmem
    rw [hrerun, hretry, Bool.not_false, Bool.true_and] at hunrun
    use runnable.operator, hgathers, hdue.1, hunrun.symm, hoperator
  · rintro ⟨operator, hgathers, hopen, hunrun, hoperator, rfl⟩
    have hdue : operator ∈ plan.runnable.map Runnable.operator := by
      rw [hfilter, List.mem_filter]
      use hgathers
      rw [isDue, hopen, hunarmed, hunrun]
      rfl
    obtain ⟨runnable, hmem, rfl⟩ := List.mem_map.mp hdue
    have hretry := ((plan_runnable hplan).2 runnable hmem).retry
    rw [hunarmed] at hretry
    refine ⟨runnable, ⟨hmem, ⟨?_, hretry⟩, hoperator⟩, rfl⟩
    rw [hreruns runnable hmem, hunrun, Bool.and_false]

end

/-! ### The first pass -/

/-- A resume has begun to gather: the mirror shows what is persisted, the watermarks are read, and
nothing has run in the process. -/
structure Begun (services : GatherServices P C O) (permissions : NamespacePermissions)
    (store : SessionState) (mirror : SessionStateMirror) (memory : OperatorMemory) : Prop where
  agrees : Agrees mirror store
  answers : ∀ operatorId, mirror.Answers (memory.watermarks.get? operatorId)
  retries : memory.retries = .initial
  running : memory.running = .empty
  breaker : memory.breaker = ⟨services.resumedCaps permissions, .empty⟩
  runs : ∀ operator, memory.runs.get? (services.operatorId operator) = none
  loaded : ∀ operator ∈ (services.resumed permissions).gathering,
    memory.watermarks.get? (services.operatorId operator)
      = store.getWatermark (services.operatorId operator)

/-- A resume begins to gather. -/
theorem resume_begins (services : GatherServices P C O) (permissions : NamespacePermissions)
    (persisted : PersistedSession) {store : SessionState} (hwellFormed : store.WellFormed)
    (epoch : Epoch) (now deadline : Monotonic) :
  ∃ gather, (Gather.start (services.resumed permissions) epoch (services.resumedCaps permissions)
      now (services.resumedState persisted store)).step (services.resumed permissions)
      (.begin' deadline) = some gather
    ∧ gather.phase = .head ∧ gather.now = now ∧ gather.deadline = deadline
    ∧ Begun services permissions store gather.state.mirror gather.memory
  := by
  generalize hstart : Gather.start (services.resumed permissions) epoch
    (services.resumedCaps permissions) now (services.resumedState persisted store) = start
  have hready : start.phase = .ready := by
    rw [← hstart]
    rfl
  have hmirror : Agrees start.state.mirror start.state.store := by
    rw [← hstart]
    apply agrees_rehydrate _ hwellFormed
  obtain ⟨mirror, hprime, hagrees, -, -, hanswers⟩ := @Gather.InStep.primeAll O start
    (Paging.inOrder id (start.loadWatermarks (services.resumed permissions)).values.dedup)
    start.state.mirror hmirror
  use start.beginGather (services.resumed permissions) deadline
  rw [Gather.beginGather, hprime]
  refine ⟨?hbegin, rfl, ?hnow, rfl, ?hagrees, ?hanswers, rfl, rfl, ?hbreaker, ?hruns, ?hloaded⟩
  case hbegin =>
    simp only [Gather.step, Gather.loopStep, hready, Gather.beginGather, hprime]
  case hnow =>
    rw [← hstart]
    rfl
  case hagrees =>
    rw [← hstart] at hagrees
    apply hagrees
  case hanswers =>
    intro operatorId since hsince
    apply hanswers
    rw [Paging.mem_inOrder, List.mem_dedup]
    apply Dict.mem_values_iff.mpr ⟨operatorId, hsince⟩
  case hbreaker =>
    rw [← hstart]
    rfl
  case hruns =>
    intro operator
    rw [← hstart]
    rfl
  case hloaded =>
    intro operator hmem
    have hload := @Gather.get?_loadWatermarks P C O (services.resumed permissions) start operator hmem
    rw [← hstart] at hload ⊢
    apply hload

/-- A resume comes to the look at its deadline, and enters the gather loop if its budget is not used
up by then. -/
theorem resume_looks (services : GatherServices P C O) (permissions : NamespacePermissions)
    (persisted : PersistedSession) {store : SessionState} (hwellFormed : store.WellFormed)
    (epoch : Epoch) (now budget : Monotonic) (elapsed : ℕ) :
  ∃ gather, TransitionSystem.run (Gather.step (services.resumed permissions))
        (.start (services.resumed permissions) epoch (services.resumedCaps permissions) now
          (services.resumedState persisted store))
        [.begin' (now + budget), .elapse elapsed, .renew none] = some gather
    ∧ gather.phase = (if elapsed < budget then .inbox else .draining .deadline)
    ∧ Begun services permissions store gather.state.mirror gather.memory
  := by
  obtain ⟨begun, hbegin, hhead, hnow, hdeadline, hbegun⟩ := resume_begins services permissions
    persisted hwellFormed epoch now (now + budget)
  have hbefore : begun.now + elapsed < begun.deadline ↔ elapsed < budget := by
    rw [hnow, hdeadline]
    apply Int.add_lt_add_iff_left
  have hlooks : ∀ {gather : Gather O},
      ({ begun with now := begun.now + elapsed } : Gather O).step (services.resumed permissions)
        (.renew none) = some gather →
      TransitionSystem.run (Gather.step (services.resumed permissions))
        (.start (services.resumed permissions) epoch (services.resumedCaps permissions) now
          (services.resumedState persisted store))
        [.begin' (now + budget), .elapse elapsed, .renew none] = some gather := by
    intro gather hrenew
    refine TransitionSystem.run_cons_eq_some.mpr ⟨begun, hbegin, ?_⟩
    refine TransitionSystem.run_cons_eq_some.mpr ⟨_, rfl, ?_⟩
    refine TransitionSystem.run_cons_eq_some.mpr ⟨gather, hrenew, rfl⟩
  by_cases hentered : elapsed < budget
  · rw [if_pos hentered]
    use { begun with now := begun.now + elapsed, phase := .inbox }
    refine ⟨hlooks ?_, rfl, hbegun⟩
    simp only [Gather.step, Gather.loopStep, hhead, if_pos (hbefore.mpr hentered)]
  · rw [if_neg hentered]
    use { begun with now := begun.now + elapsed, phase := .draining .deadline }
    refine ⟨hlooks ?_, rfl, hbegun⟩
    simp only [Gather.step, Gather.loopStep, hhead, if_neg (mt hbefore.mp hentered)]

theorem mem_resumed_gathering_iff {services : GatherServices P C O}
    {permissions : NamespacePermissions} {operator : O} :
  operator ∈ (services.resumed permissions).gathering
    ↔ operator ∈ services.flow.gathering services.classes
      ∧ permissions.gates (services.operatorId operator) = false
  := by
  rw [resumed, List.mem_filter, Bool.not_eq_true']

/-- An operator that is gathered is one of the flow. -/
theorem mem_operators_of_gathering {services : GatherServices P C O} {operator : O}
    (h : operator ∈ services.flow.gathering services.classes) :
  operator ∈ services.flow.operators
  := List.mem_of_mem_filter (FlowDefinition.mem_gathering_iff.mp h).1

/-- The breaker of a resume is tripped from the start for the operators whose cap leaves them no
run. -/
theorem isTripped_resumedCaps {services : GatherServices P C O} {permissions : NamespacePermissions}
    {operator : O} (hgathers : operator ∈ (services.resumed permissions).gathering) :
  CircuitBreaker.isTripped ⟨services.resumedCaps permissions, .empty⟩ (services.operatorId operator)
      = true
    ↔ services.CappedOut permissions operator
  := by
  have hinjective : Function.Injective services.operatorId := services.classes.operatorId_injective
  rw [resumedCaps, isTripped_circuitCaps hinjective]
  apply and_iff_right hgathers

/-- The first runs of the first pass of a resume: the operators that are expected, of those that are
gathered, if their cap leaves them a run. -/
theorem mem_firstRuns_resumed_iff {services : GatherServices P C O}
    {permissions : NamespacePermissions} {persisted : PersistedSession} {store : SessionState}
    {mirror : SessionStateMirror} {memory : OperatorMemory}
    (hbegun : Begun services permissions store mirror memory)
    (hwatermarks : store.watermarks = persisted.store.watermarks)
    {now : Monotonic} {plan : GatherPlan O}
    (hplan : (services.resumed permissions).plan mirror memory persisted.store.snapshot
      (services.declarations.computeAvailable services.registeredCapabilities
        permissions.capabilities (services.presentTypes persisted.store.snapshot)) now = .ok plan)
    {operatorId : OperatorId} :
  operatorId ∈ services.firstRuns plan
    ↔ ∃ operator, services.Expected permissions persisted operator
      ∧ operator ∈ services.flow.gathering services.classes
      ∧ ¬services.CappedOut permissions operator
      ∧ services.operatorId operator = operatorId
  := by
  have hloaded : ∀ operator ∈ (services.resumed permissions).gathering,
      memory.watermarks.get? (services.operatorId operator)
        = persisted.store.getWatermark (services.operatorId operator) := by
    intro operator hmem
    rw [hbegun.loaded operator hmem, SessionState.getWatermark, hwatermarks]
    rfl
  apply (@mem_firstRuns_iff P C O _ _ (services.resumed permissions) _ _ _ _ now plan
    hbegun.retries hplan operatorId).trans
  apply exists_congr
  intro operator
  rw [mem_resumed_gathering_iff]
  constructor
  · rintro ⟨⟨hgathers, hungated⟩, hopen, hunrun, hoperator, hid⟩
    have hresumed := mem_resumed_gathering_iff.mpr ⟨hgathers, hungated⟩
    rw [isOpen, Bool.and_eq_true, Bool.and_eq_true, Bool.not_eq_true', hbegun.breaker] at hopen
    obtain ⟨⟨-, huntripped⟩, hready⟩ := hopen
    rw [hasRun, Bool.or_eq_false_iff] at hunrun
    have hwatermark := Option.not_isSome_iff_eq_none.mp (Bool.not_eq_true _ ▸ hunrun.2)
    refine ⟨⟨mem_operators_of_gathering hgathers, ?_, hready, hungated, hoperator⟩, hgathers, ?_, hid⟩
    · rw [← hloaded operator hresumed]
      apply hwatermark
    · rw [← isTripped_resumedCaps hresumed, Bool.not_eq_true]
      apply huntripped
  · rintro ⟨h, hgathers, huncapped, hid⟩
    have hresumed := mem_resumed_gathering_iff.mpr ⟨hgathers, h.ungated⟩
    refine ⟨⟨hgathers, h.ungated⟩, ?_, ?_, h.operator, hid⟩
    · rw [← isTripped_resumedCaps hresumed, Bool.not_eq_true] at huncapped
      rw [isOpen, hbegun.running, hbegun.breaker]
      apply Bool.and_eq_true_iff.mpr ⟨?_, h.ready⟩
      apply Bool.and_eq_true_iff.mpr ⟨rfl, ?_⟩
      rw [Bool.not_eq_true']
      apply huncapped
    · have hruns' := hbegun.runs operator
      have hloaded' := hloaded operator hresumed
      rw [h.unrun] at hloaded'
      rw [hasRun]
      apply Bool.or_eq_false_iff.mpr
      constructor
      · apply Option.isSome_eq_false_iff.mpr
        rw [Option.isNone_iff_eq_none]
        apply hruns'
      · apply Option.isSome_eq_false_iff.mpr
        rw [Option.isNone_iff_eq_none]
        apply hloaded'

/-- A resume whose gather loop is entered has a first pass, and launches the first runs of its
plan. -/
theorem firstLaunches_of_begun {services : GatherServices P C O}
    {permissions : NamespacePermissions} {persisted : PersistedSession} {store : SessionState}
    {gather : Gather O} {maxAttempts : ℕ} {hpos : 0 < maxAttempts}
    {backoffDelays : CapabilityId → ℕ → Monotonic}
    {call : RefreshCall (services.activatorServices maxAttempts hpos backoffDelays)}
    (hpresent : call.present = services.presentTypes persisted.store.snapshot)
    (hpermitted : call.permitted = permissions.capabilities)
    (hends : ∀ capabilityId, call.ends capabilityId = .succeeded)
    (hbegun : Begun services permissions store gather.state.mirror gather.memory)
    (hentries : store.entries = persisted.store.entries)
    (hwatermarks : store.watermarks = persisted.store.watermarks)
    (hphase : gather.phase = .inbox) :
  ∃ launched, services.firstLaunches permissions call gather = some launched
    ∧ ∀ operatorId, operatorId ∈ launched
      ↔ ∃ operator, services.Expected permissions persisted operator
        ∧ operator ∈ services.flow.gathering services.classes
        ∧ ¬services.CappedOut permissions operator
        ∧ services.operatorId operator = operatorId
  := by
  obtain ⟨view, activator, hrefresh, havailable⟩ := Activator.refresh_of_succeed hends
  have hids : view.available = services.declarations.computeAvailable
      services.registeredCapabilities permissions.capabilities
      (services.presentTypes persisted.store.snapshot) := by
    rw [havailable, RefreshCall.available, hpresent, hpermitted]
    rfl
  have hsnapshot : gather.state.mirror.snapshot gather.state.mirror.sessionId
      = .ok persisted.store.snapshot := by
    rw [hbegun.agrees.snapshot, SessionState.snapshot, hentries]
    rfl
  obtain ⟨plan, hplan⟩ := @plan_eq_ok P C O _ _ (services.resumed permissions) gather.state.mirror
    gather.memory persisted.store.snapshot view.available gather.now (by
      intro operator
      refine ⟨_, operatorDelta_eq hbegun.agrees (hbegun.answers _) view.available _⟩)
  use services.firstRuns plan
  constructor
  · have hdrained : gather.step (services.resumed permissions) (.inboxDone none)
        = some { gather with phase := .refreshing } := by
      simp only [Gather.step, Gather.loopStep, hphase]
    rw [firstLaunches, hphase]
    simp only [hdrained, hsnapshot, hrefresh, hplan, Except.toOption, Option.bind_eq_bind,
      Option.bind_some, Option.pure_def]
  · intro operatorId
    rw [hids] at hplan
    apply mem_firstRuns_resumed_iff hbegun hwatermarks hplan

omit [DecidableEq O] in
/-- If what launches are the expected operators that meet a condition, it is all that is expected if
and only if all that is expected meets it. -/
theorem expected_iff_launched_iff {services : GatherServices P C O} {names : ClassNames P C}
    {permissions : NamespacePermissions} {persisted : PersistedSession}
    {namespaceId flowName : String} {launched : List OperatorId} {Launches : O → Prop}
    (hlaunched : ∀ operatorId, operatorId ∈ launched
      ↔ ∃ operator, services.Expected permissions persisted operator ∧ Launches operator
        ∧ services.operatorId operator = operatorId) :
  (∀ operatorId,
      operatorId ∈ (services.describeSession names permissions persisted namespaceId
          flowName).expected
        ↔ operatorId ∈ launched)
    ↔ ∀ operator, services.Expected permissions persisted operator → Launches operator
  := by
  constructor
  · intro hagree operator hexpected
    obtain ⟨other, -, hlaunches, hsame⟩ := (hlaunched _).mp
      ((hagree (services.operatorId operator)).mp
        (mem_expected_iff.mpr ⟨operator, hexpected, rfl⟩))
    obtain rfl := services.classes.operatorId_injective hsame
    exact hlaunches
  · intro hall operatorId
    rw [mem_expected_iff, hlaunched]
    constructor
    · rintro ⟨operator, hexpected, hid⟩
      use operator, hexpected, hall operator hexpected
    · rintro ⟨operator, hexpected, -, hid⟩
      use operator, hexpected

/-- `describe_session` and the first pass of a resume of the session: whatever is persisted and the
namespace is permitted, the resume has a budget and comes to the look at its deadline; and the
operators described as not run, ready now and not gated are those that its first pass launches for
the first time, if and only if each of them finds the budget not used up, feeds what is consumed and
has a run left by its cap. -/
theorem describeSession_agrees_iff (services : GatherServices P C O) (names : ClassNames P C)
    (permissions : NamespacePermissions) (persisted : PersistedSession)
    (namespaceId flowName : String) {maxAttempts : ℕ} (hpos : 0 < maxAttempts)
    (backoffDelays : CapabilityId → ℕ → Monotonic)
    (call : RefreshCall (services.activatorServices maxAttempts hpos backoffDelays))
    (hpresent : call.present = services.presentTypes persisted.store.snapshot)
    (hpermitted : call.permitted = permissions.capabilities)
    (hends : ∀ capabilityId, call.ends capabilityId = .succeeded)
    (resume : ResumeCall) :
  ∃ budget store gather launched,
    resumedBudget persisted resume = .ok (budget, store)
    ∧ TransitionSystem.run (Gather.step (services.resumed permissions))
        (.start (services.resumed permissions) (persisted.currentEpoch + 1)
          (services.resumedCaps permissions) resume.now (services.resumedState persisted store))
        [.begin' (resume.now + budget), .elapse resume.elapsed, .renew none] = some gather
    ∧ services.firstLaunches permissions call gather = some launched
    ∧ ((∀ operatorId,
        operatorId ∈ (services.describeSession names permissions persisted namespaceId
            flowName).expected
          ↔ operatorId ∈ launched)
      ↔ ∀ operator, services.Expected permissions persisted operator →
        resume.elapsed < budget
          ∧ operator ∈ services.flow.gathering services.classes
          ∧ ¬services.CappedOut permissions operator)
  := by
  obtain ⟨budget, store, hbudget⟩ := SessionState.remainingSessionBudget_of_le
    (Nat.le_succ_of_le persisted.minted) resume.sessionDeadline resume.freshDeadline
    resume.wallClock
  obtain ⟨hentries, hrevision, hwatermarks, -, -⟩ :=
    SessionState.remainingSessionBudget_eq_ok hbudget
  have hwellFormed : store.WellFormed := by
    rw [SessionState.WellFormed, hentries, hrevision]
    apply persisted.wellFormed
  obtain ⟨gather, hrun, hphase, hbegun⟩ := resume_looks services permissions persisted hwellFormed
    (persisted.currentEpoch + 1) resume.now budget resume.elapsed
  by_cases hentered : resume.elapsed < budget
  · rw [if_pos hentered] at hphase
    obtain ⟨launched, hlaunches, hfirst⟩ := firstLaunches_of_begun hpresent hpermitted hends hbegun
      hentries hwatermarks hphase
    refine ⟨budget, store, gather, launched, hbudget, hrun, hlaunches, ?_⟩
    apply expected_iff_launched_iff
    intro operatorId
    rw [hfirst]
    apply exists_congr
    intro operator
    simp only [hentered, true_and, and_assoc]
  · -- the gather loop is not entered, and what is expected does not launch
    rw [if_neg hentered] at hphase
    have hlaunches : services.firstLaunches permissions call gather = some [] := by
      rw [firstLaunches, hphase]
    refine ⟨budget, store, gather, [], hbudget, hrun, hlaunches, ?_⟩
    apply expected_iff_launched_iff
    intro operatorId
    simp only [hentered, false_and, and_false, exists_false, List.not_mem_nil]

end GatherServices

/-! ### An operator that is pruned -/

/-- An aggregator that consumes emails, and operators for whom there is nothing to wait. -/
def emailReport (operators : List OperatorId) :
    GatherServices DataPointType CapabilityId OperatorId :=
  { textGather operators none with
    flow :=
      { (textGather operators none).flow with
        produces := fun operatorId =>
          if operatorId = "mailer" then {"email"}
          else if operatorId = "noter" then {"note"}
          else ∅
        aggregator := fun operatorId =>
          if operatorId = "report" then some ⟨false, {"email"}⟩ else none } }

/-- A session of which nothing is persisted but its deadline. -/
def startedSession (deadline : Option Timestamp) : PersistedSession where
  store := { SessionState.initial with deadline := deadline }
  wellFormed := SessionState.initial_wellFormed
  audit := .initial
  archive := .initial
  isComplete := false
  isHeld := false
  currentEpoch := 0
  minted := Nat.le_refl 0
  pendingCount := 0
  quarantined := []
  isContributionMarked := fun _ => false

/-- A resume ten ticks before a deadline of 100, of which two go by. -/
def resumedInTime : GatherServices.ResumeCall := ⟨50, false, 0, 90, 2⟩

/-- A namespace that permits every operator. -/
def openPermissions : NamespacePermissions := ⟨∅, none⟩

/-- A refresh where no capability is registered. -/
def noCapabilities (operators : List OperatorId) :
    RefreshCall ((emailReport operators).activatorServices 1 Nat.one_pos (fun _ _ => 0)) where
  present := ∅
  permitted := ∅
  preference := []
  now := 0
  order := []
  nodup_order := List.nodup_nil
  toFinset_order := rfl
  ends := fun _ => .succeeded
  terminalRaises := fun _ => false

/-- Without the noter, what is expected is what launches. -/
theorem describeSession_agrees_iff_report :
  ((emailReport ["mailer", "report"]).describeSession ⟨id, id⟩ openPermissions
      (startedSession (some 100)) "n" "report").expected = ["mailer"]
    ∧ ∃ budget store gather launched,
      GatherServices.resumedBudget (startedSession (some 100)) resumedInTime = .ok (budget, store)
      ∧ TransitionSystem.run
          (Gather.step ((emailReport ["mailer", "report"]).resumed openPermissions))
          (.start ((emailReport ["mailer", "report"]).resumed openPermissions) 1
            ((emailReport ["mailer", "report"]).resumedCaps openPermissions) 0
            ((emailReport ["mailer", "report"]).resumedState (startedSession (some 100)) store))
          [.begin' (0 + budget), .elapse 2, .renew none] = some gather
      ∧ (emailReport ["mailer", "report"]).firstLaunches openPermissions
          (noCapabilities ["mailer", "report"]) gather = some launched
      ∧ "mailer" ∈ launched
  := by
  obtain ⟨budget, store, gather, launched, hbudget, hrun, hlaunches, hagrees⟩ :=
    (emailReport ["mailer", "report"]).describeSession_agrees_iff ⟨id, id⟩ openPermissions
      (startedSession (some 100)) "n" "report" Nat.one_pos (fun _ _ => 0)
      (noCapabilities ["mailer", "report"]) rfl rfl (fun _ => rfl) resumedInTime
  have hexpected : ((emailReport ["mailer", "report"]).describeSession ⟨id, id⟩ openPermissions
      (startedSession (some 100)) "n" "report").expected = ["mailer"] := by
    decide +kernel
  refine ⟨hexpected, budget, store, gather, launched, hbudget, hrun, hlaunches, ?_⟩
  apply (hagrees.mpr _ "mailer").mp
  · rw [hexpected]
    apply List.mem_singleton_self
  · intro operator h
    refine ⟨?_, ?_, ?_⟩
    · cases hbudget
      decide
    · have hall : ∀ operator ∈ ["mailer", "report"],
          (emailReport ["mailer", "report"]).declarations.isAggregator operator = false →
          operator ∈ (emailReport ["mailer", "report"]).flow.gathering textClasses := by
        decide +kernel
      apply hall operator h.listed h.operator
    · rintro ⟨-, cap, -, hcap⟩
      cases hcap

/-- Nothing consumes what the noter produces: it is expected to launch, but not gathered. -/
theorem noter_expected_but_pruned :
  Accepted (fun _ => "") (fun operatorId =>
        ((emailReport ["mailer", "noter", "report"]).flow.policy operatorId).maxCycles)
      ((emailReport ["mailer", "noter", "report"]).declarations.adjacency
        ((emailReport ["mailer", "noter", "report"]).flow.gathering textClasses) [])
    ∧ ((emailReport ["mailer", "noter", "report"]).describeSession ⟨id, id⟩ openPermissions
        (startedSession none) "n" "report").expected = ["mailer", "noter"]
    ∧ ∃ budget store gather,
      GatherServices.resumedBudget (startedSession none) resumedInTime = .ok (budget, store)
      ∧ TransitionSystem.run
          (Gather.step ((emailReport ["mailer", "noter", "report"]).resumed openPermissions))
          (.start ((emailReport ["mailer", "noter", "report"]).resumed openPermissions) 1
            ((emailReport ["mailer", "noter", "report"]).resumedCaps openPermissions) 0
            ((emailReport ["mailer", "noter", "report"]).resumedState (startedSession none) store))
          [.begin' (0 + budget), .elapse 2, .renew none] = some gather
      ∧ (emailReport ["mailer", "noter", "report"]).firstLaunches openPermissions
          (noCapabilities ["mailer", "noter", "report"]) gather = some ["mailer"]
  := by
  constructor
  · rfl
  · constructor
    · decide +kernel
    · refine ⟨_, _, _, rfl, rfl, rfl⟩

end Orcastork
