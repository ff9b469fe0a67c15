import Mathlib.Algebra.GroupWithZero.Nat
import Orcastork.Orchestrator.OperatorView
import Orcastork.Orchestrator.Triggers

/-!
# What the launches of an operator are paid with

A gather launches an operator for the first time, again after a failure, and again for what is new:
a capability, or a DataPoint of a type that triggers it. Each launch that is no retry is paid with one
of these, and with it the retries that it may come to (`Gather.Affects.accounts`). An operator with a
cap is launched within its cap (`Gather.Affects.runsLeft`).
-/

namespace Orcastork

/-! ### Triggers -/

section Deltas

variable {store : SessionState} {since : Option Revision} {available previous : Finset CapabilityId}
  {dataPoint : BaseDataPoint}

/-- What is presented as added was added above the watermark. -/
theorem exists_of_mem_added (h : dataPoint ∈ (storeDelta store since available previous).added) :
  ∃ entry ∈ store.entries.values, (∀ revision, since = some revision → revision < entry.addedRev)
    ∧ entry.dataPoint = dataPoint
  := by
  cases since with
  | none =>
      obtain ⟨entry, hentry, hsame⟩ := List.mem_map.mp h
      exact ⟨entry, hentry, nofun, hsame⟩
  | some since =>
      obtain ⟨entry, hfiltered, hsame⟩ := List.mem_map.mp h
      obtain ⟨hentry, habove⟩ := List.mem_filter.mp hfiltered
      refine ⟨entry, hentry, ?_, hsame⟩
      rintro _ ⟨⟩
      exact of_decide_eq_true habove

/-- What is presented as updated was updated above the watermark. -/
theorem exists_of_mem_updated
    (h : dataPoint ∈ (storeDelta store since available previous).updated) :
  ∃ entry ∈ store.entries.values, (∀ revision, since = some revision → revision < entry.updatedRev)
    ∧ entry.dataPoint = dataPoint
  := by
  cases since with
  | none => cases h
  | some since =>
      obtain ⟨entry, hfiltered, hsame⟩ := List.mem_map.mp h
      obtain ⟨hentry, habove⟩ := List.mem_filter.mp hfiltered
      refine ⟨entry, hentry, ?_, hsame⟩
      rintro _ ⟨⟩
      exact (of_decide_eq_true habove).2

end Deltas

namespace SessionState

theorem mem_mergeOne {n : Revision} {entries : Entries} {changed : Bool} {dataPoint : BaseDataPoint}
    (hentries : entries.WellFormed n) {entry : Entry}
    (h : entry ∈ (mergeOne n (entries, changed) dataPoint).1.values) :
  entry ∈ entries.values ∨ dataPoint.type = entry.dataPoint.type
  := by
  have hset : ∀ merged : Entry, merged.dataPoint.type = dataPoint.type →
      entry ∈ (entries.set (identityKey dataPoint) merged).values →
      entry ∈ entries.values ∨ dataPoint.type = entry.dataPoint.type := by
    intro merged htype hmem
    obtain ⟨key, hget⟩ := Dict.mem_values_iff.mp hmem
    rw [Dict.get?_set] at hget
    split at hget
    · cases hget
      exact Or.inr htype.symm
    · exact Or.inl (Dict.mem_values_iff.mpr ⟨key, hget⟩)
  cases hget : entries.get? (identityKey dataPoint) with
  | none =>
      rw [mergeOne_new hget] at h
      exact hset _ rfl h
  | some existing =>
      rcases lt_or_ge existing.dataPoint.lastRetrieved dataPoint.lastRetrieved with hlt | hle
      · rw [mergeOne_newer hget hlt] at h
        refine hset ⟨existing.dataPoint.reobserved dataPoint.lastRetrieved, existing.addedRev, n⟩ ?_ h
        exact congrArg Prod.fst (hentries.keyed hget)
      · rw [mergeOne_not_newer hget hle] at h
        exact Or.inl h

/-- A merge leaves the entries of other types. -/
theorem mem_foldl_mergeOne {n : Revision} {entries : Entries} {changed : Bool}
    {batch : List BaseDataPoint} (hentries : entries.WellFormed n) {entry : Entry}
    (h : entry ∈ (batch.foldl (mergeOne n) (entries, changed)).1.values) :
  entry ∈ entries.values ∨ ∃ dataPoint ∈ batch, dataPoint.type = entry.dataPoint.type
  := by
  induction batch generalizing entries changed with
  | nil => exact Or.inl h
  | cons dataPoint batch ih =>
      rcases ih (mergeOne_wellFormed hentries dataPoint) h with hmem | ⟨other, hother, htype⟩
      · rcases mem_mergeOne hentries hmem with hold | htype
        · exact Or.inl hold
        · exact Or.inr ⟨dataPoint, List.mem_cons_self, htype⟩
      · exact Or.inr ⟨other, List.mem_cons_of_mem _ hother, htype⟩

/-- What is newer than the observation of its identity that is held is stored above the revision. -/
theorem exists_updated_of_wrote {store store' : SessionState} {dataPoint : BaseDataPoint}
    (hstore : store.WellFormed) (hwrote : Gather.Wrote store store' [dataPoint])
    (hobserves : Observes store'.entries dataPoint)
    (hnewer : ∀ existing, store.entries.get? (identityKey dataPoint) = some existing →
      existing.dataPoint.lastRetrieved < dataPoint.lastRetrieved) :
  ∃ entry ∈ store'.entries.values, store.revision < entry.updatedRev
    ∧ entry.dataPoint.type = dataPoint.type
  := by
  rcases hwrote with rfl | ⟨epoch, revision, hwrite⟩
  · obtain ⟨held, hheld, hle⟩ := hobserves
    rw [dataPoints, Dict.get?_map, Option.map_eq_some_iff] at hheld
    obtain ⟨existing, hexisting, rfl⟩ := hheld
    exact absurd (hnewer existing hexisting) (not_lt.mpr hle)
  · have hentries := (write_eq_ok hwrite).1
    rw [List.foldl_cons, List.foldl_nil] at hentries
    rw [hentries]
    cases hget : store.entries.get? (identityKey dataPoint) with
    | none =>
        rw [mergeOne_new hget]
        exact ⟨_, Dict.mem_values_iff.mpr ⟨_, Dict.get?_set_self _ _ _⟩, Nat.lt_succ_self _, rfl⟩
    | some existing =>
        rw [mergeOne_newer hget (hnewer existing hget)]
        refine ⟨_, Dict.mem_values_iff.mpr ⟨_, Dict.get?_set_self _ _ _⟩, Nat.lt_succ_self _, ?_⟩
        exact congrArg Prod.fst (hstore.keyed hget)

end SessionState

namespace GatherServices

variable {P C O : Type} [DecidableEq P] (services : GatherServices P C O)

/-- A DataPoint of a type makes an operator run again. -/
def triggers (operator : O) (dataPointType : DataPointType) : Bool :=
  (services.flow.policy operator).rerunOnNewData
    && decide (∃ trigger ∈ services.flow.dependsOn operator ∪ services.flow.uses operator,
      services.classes.dataPoints.issubclass (services.leafClass dataPointType) trigger = true)

omit [DecidableEq P] in
/-- The revision of an entry that an operator goes by. -/
def stamp (operator : O) (entry : Entry) : Revision :=
  match (services.flow.policy operator).rerunOn with
  | .addedOnly => entry.addedRev
  | .addedOrUpdated => entry.updatedRev

/-- Something above a revision makes an operator run again. -/
def isFresh (operator : O) (entries : Entries) (since : Option Revision) : Bool :=
  entries.values.any (fun entry =>
    since.all (fun revision => decide (revision < services.stamp operator entry))
      && services.triggers operator entry.dataPoint.type)

variable {services} {operator : O} {store store' : SessionState}

theorem isFresh_iff {entries : Entries} {since : Option Revision} :
  services.isFresh operator entries since = true
    ↔ ∃ entry ∈ entries.values,
      (∀ revision, since = some revision → revision < services.stamp operator entry)
        ∧ services.triggers operator entry.dataPoint.type = true
  := by
  rw [isFresh, List.any_eq_true]
  apply exists_congr
  intro entry
  rw [Bool.and_eq_true]
  cases since with
  | none => simp
  | some since => simp

omit [DecidableEq P] in
/-- A stamp is not past the revision. -/
theorem stamp_le (h : store.WellFormed) {entry : Entry} (hentry : entry ∈ store.entries.values) :
  services.stamp operator entry ≤ entry.updatedRev ∧ entry.updatedRev ≤ store.revision
  := by
  obtain ⟨key, hget⟩ := Dict.mem_values_iff.mp hentry
  refine ⟨?_, h.updated_le hget⟩
  rw [stamp]
  split
  · exact h.added_le hget
  · exact le_refl _

/-- Nothing is above the revision of the store. -/
theorem isFresh_revision (h : store.WellFormed) :
  services.isFresh operator store.entries (some store.revision) = false
  := by
  rw [Bool.eq_false_iff, ne_eq, isFresh_iff]
  rintro ⟨entry, hentry, habove, -⟩
  obtain ⟨hstamp, hle⟩ := @stamp_le P C O services operator store h entry hentry
  exact absurd (habove _ rfl) (Nat.not_lt.mpr (hstamp.trans hle))

/-- Something becomes new to an operator if something that triggers it is written. -/
theorem isFresh_of_wrote {dataPoints : List BaseDataPoint} (hstore : store.WellFormed)
    (hwrote : Gather.Wrote store store' dataPoints) {since : Option Revision}
    (h : services.isFresh operator store'.entries since = true) :
  services.isFresh operator store.entries since = true
    ∨ 0 < (dataPoints.map BaseDataPoint.type).countP (services.triggers operator)
  := by
  rcases hwrote with rfl | ⟨epoch, revision, hwrite⟩
  · exact Or.inl h
  · rw [isFresh_iff] at h ⊢
    obtain ⟨entry, hentry, habove, htriggers⟩ := h
    rw [(SessionState.write_eq_ok hwrite).1] at hentry
    rcases SessionState.mem_foldl_mergeOne (hstore.mono (Nat.le_succ _)) hentry with
      hold | ⟨dataPoint, hmem, htype⟩
    · exact Or.inl ⟨entry, hold, habove, htriggers⟩
    · right
      rw [List.countP_pos_iff]
      refine ⟨_, List.mem_map_of_mem hmem, ?_⟩
      rw [htype]
      exact htriggers

/-- What an operator runs again for is new to it, or is a capability. -/
theorem fresh_of_rerunEligible {since : Option Revision} {available previous : Finset CapabilityId}
    (hstore : store.WellFormed)
    (h : services.flow.rerunEligible services.classes operator
        (services.newData (storeDelta store since available previous)) = true) :
  (services.flow.policy operator).rerunOnNewData = true
    ∧ (¬available ⊆ previous ∨ services.isFresh operator store.entries since = true)
  := by
  rw [FlowDefinition.rerunEligible, Bool.and_eq_true] at h
  obtain ⟨hrerun, hrelevant⟩ := h
  use hrerun
  rw [FlowDefinition.hasRelevantNewData] at hrelevant
  split at hrelevant
  · rename_i hcaps
    left
    intro hsub
    apply hcaps
    rw [newData, newlyAvailableCaps_storeDelta, Finset.sdiff_eq_empty_iff_subset]
    exact hsub
  · right
    rw [decide_eq_true_eq] at hrelevant
    obtain ⟨leaf, hleaf, trigger, htrigger, hsubclass⟩ := hrelevant
    have htriggers : ∀ dataPoint : BaseDataPoint, services.leafClass dataPoint.type = leaf →
        services.triggers operator dataPoint.type = true := by
      rintro dataPoint rfl
      rw [triggers, hrerun, Bool.true_and, decide_eq_true_eq]
      exact ⟨trigger, htrigger, hsubclass⟩
    have hpresent : ∀ view : DataPointView, leaf ∈ services.presentTypes view →
        ∃ dataPoint ∈ view, services.leafClass dataPoint.type = leaf := by
      intro view hmem
      rw [presentTypes, List.mem_toFinset, List.mem_map] at hmem
      exact hmem
    have hadded : leaf ∈ services.presentTypes (storeDelta store since available previous).added →
        ∃ entry ∈ store.entries.values, (∀ revision, since = some revision →
            revision < entry.addedRev)
          ∧ services.triggers operator entry.dataPoint.type = true := by
      intro hmem
      obtain ⟨dataPoint, hdataPoint, hleafClass⟩ := hpresent _ hmem
      obtain ⟨entry, hentry, habove, rfl⟩ := exists_of_mem_added hdataPoint
      exact ⟨entry, hentry, habove, htriggers _ hleafClass⟩
    rw [isFresh_iff]
    cases hmode : (services.flow.policy operator).rerunOn with
    | addedOnly =>
        rw [hmode] at hleaf
        obtain ⟨entry, hentry, habove, htrigger'⟩ := hadded hleaf
        refine ⟨entry, hentry, ?_, htrigger'⟩
        rw [stamp, hmode]
        exact habove
    | addedOrUpdated =>
        rw [hmode] at hleaf
        rcases Finset.mem_union.mp hleaf with hleaf | hleaf
        · obtain ⟨entry, hentry, habove, htrigger'⟩ := hadded hleaf
          refine ⟨entry, hentry, ?_, htrigger'⟩
          rw [stamp, hmode]
          intro revision hsince
          obtain ⟨key, hget⟩ := Dict.mem_values_iff.mp hentry
          exact (habove revision hsince).trans_le (hstore.added_le hget)
        · obtain ⟨dataPoint, hdataPoint, hleafClass⟩ := hpresent _ hleaf
          obtain ⟨entry, hentry, habove, rfl⟩ := exists_of_mem_updated hdataPoint
          refine ⟨entry, hentry, ?_, htriggers _ hleafClass⟩
          rw [stamp, hmode]
          exact habove

end GatherServices

/-! ### What is still to come -/

namespace OperatorView

variable (view : OperatorView)

/-- An operator has DataPoints to be launched for, at once or when its run is recorded. -/
def hasData (fresh : Option Revision → Bool) : Bool :=
  match view.running with
  | some observed => fresh (some observed)
  | none => !view.armed && (!view.ran || fresh view.watermark)

/-- A capability is new to an operator. -/
def lacks (available : Finset CapabilityId) : Bool := decide (¬available ⊆ view.prevCaps)

/-- The retries that are left to an operator. -/
def retriesLeft (attempts : ℕ) : ℕ :=
  match view.running with
  | some _ => attempts - 1 - view.failed
  | none => if view.armed then 1 + (attempts - 1 - view.failed) else 0

/-- The runs that a cap leaves to an operator. -/
def runsLeft (cap : ℤ) : ℕ :=
  (cap - view.cycles).toNat - if view.running.isSome then 1 else 0

end OperatorView

/-- The capabilities at hand, and how often they have changed. -/
structure Availability where
  available : Finset CapabilityId
  changes : ℕ

def Availability.observe (seen : Availability) : GatherAction → Availability
  | .refresh available none =>
    if available = seen.available then seen else ⟨available, seen.changes + 1⟩
  | _ => seen

/-- The availability over some actions of a gather, which starts with nothing at hand. -/
def availability (past : List GatherAction) : Availability :=
  past.foldl Availability.observe ⟨∅, 0⟩

theorem availability_append (past : List GatherAction) (action : GatherAction) :
  availability (past ++ [action]) = (availability past).observe action
  := by
  rw [availability, List.foldl_append]
  rfl

/-- After a refresh the capabilities at hand are those it found. -/
theorem Availability.observe_refresh (seen : Availability) (available : Finset CapabilityId) :
  (seen.observe (.refresh available none)).available = available
  := by
  rw [observe]
  split
  · rename_i hsame
    exact hsame.symm
  · rfl

/-- A capability becomes new to an operator only as the capabilities at hand change. -/
theorem Availability.lacks_observe (seen : Availability) (action : GatherAction)
    (view : OperatorView) (rerun : Bool) :
  (rerun && view.lacks (seen.observe action).available).toNat + seen.changes
    ≤ (rerun && view.lacks seen.available).toNat + (seen.observe action).changes
  := by
  have hle : ∀ flag : Bool, flag.toNat ≤ 1 := Bool.toNat_le
  have hsame : ∀ seen' : Availability, seen' = seen →
      (rerun && view.lacks seen'.available).toNat + seen.changes
        ≤ (rerun && view.lacks seen.available).toNat + seen'.changes := by
    rintro _ rfl
    exact le_refl _
  unfold observe
  split
  · split
    · exact hsame _ rfl
    · have hone := hle (rerun && view.lacks ‹Finset CapabilityId›)
      simp only
      omega
  · exact hsame _ rfl

namespace Gather

section Counting

variable {P C O : Type} [DecidableEq P] (services : GatherServices P C O) (operator : O)

/-- The DataPoints of an action that trigger an operator. -/
def stimulus : GatherAction → ℕ
  | .emit _ emission _ => [emission.leafType].countP (services.triggers operator)
  | action => ((delivered action).map BaseDataPoint.type).countP (services.triggers operator)

/-- What an operator is launched for: its first run, what triggers it, and new capabilities. -/
def income (past : List GatherAction) : ℕ :=
  1 + (past.map (stimulus services operator)).sum + (availability past).changes

omit [DecidableEq P] in
/-- The launches of an operator. -/
def launchesOf (gather : Gather O) : ℕ :=
  gather.launches.countP (fun launched =>
    decide (services.operatorId launched.operator = services.operatorId operator))

omit [DecidableEq P] in
/-- How often an operator comes up in a pass. -/
def occurrences : ℕ :=
  services.gathering.countP (fun other =>
    decide (services.operatorId other = services.operatorId operator))

omit [DecidableEq P] in
/-- The launches that one trigger can lead to, one after the other. -/
def attempts : ℕ := max 1 (maxAttempts services (services.operatorId operator))

/-- The triggers of an operator that it has not yet been launched for. -/
def untriggered (available : Finset CapabilityId) (gather : Gather O) : ℕ :=
  let view := gather.memory.view (services.operatorId operator)
  (view.hasData (services.isFresh operator gather.state.store.entries)).toNat
    + ((services.flow.policy operator).rerunOnNewData && view.lacks available).toNat
    + gather.upcoming.countP (services.triggers operator)

/-- The launches of an operator that are paid for and to come. -/
def reserve (available : Finset CapabilityId) (gather : Gather O) : ℕ :=
  attempts services operator * untriggered services operator available gather
    + (gather.memory.view (services.operatorId operator)).retriesLeft
      (maxAttempts services (services.operatorId operator))

end Counting

/-! ### Accounts -/

section Accounts

variable {P C O : Type} [DecidableEq P] {services : GatherServices P C O} {operator : O}
variable {gather gather' : Gather O} {action : GatherAction}

theorem income_append (past : List GatherAction) (action : GatherAction) :
  income services operator (past ++ [action]) + (availability past).changes
    = income services operator past + stimulus services operator action
      + ((availability past).observe action).changes
  := by
  rw [income, income, availability_append, List.map_append, List.sum_append, List.map_singleton,
    List.sum_singleton]
  omega

/-- A plan launches an operator that is due as often as it comes up. -/
theorem countP_runnable [DecidableEq C] {mirror : SessionStateMirror}
    {memory : OperatorMemory} {view : DataPointView} {available : Finset CapabilityId}
    {now : Monotonic} {plan : GatherPlan O}
    (hplan : services.plan mirror memory view available now = .ok plan) :
  plan.runnable.countP (fun runnable =>
      decide (services.operatorId runnable.operator = services.operatorId operator))
    = occurrences services operator
      * (services.isDue mirror memory view available now operator).toNat
  := by
  have hmap : plan.runnable.countP (fun runnable =>
        decide (services.operatorId runnable.operator = services.operatorId operator))
      = (plan.runnable.map Runnable.operator).countP (fun other =>
        decide (services.operatorId other = services.operatorId operator)) := by
    rw [List.countP_map]
    rfl
  rw [hmap, GatherServices.runnable_eq_filter hplan, List.countP_filter, occurrences]
  cases hdue : services.isDue mirror memory view available now operator with
  | true =>
      rw [Bool.toNat_true, Nat.mul_one]
      apply List.countP_congr
      intro other _
      rw [Bool.and_eq_true, decide_eq_true_eq]
      constructor
      · exact And.left
      · intro hsame
        use hsame
        rw [services.classes.operatorId_injective hsame]
        exact hdue
  | false =>
      rw [Bool.toNat_false, Nat.mul_zero, List.countP_eq_zero]
      intro other _ hboth
      rw [Bool.and_eq_true, decide_eq_true_eq] at hboth
      obtain ⟨hsame, hother⟩ := hboth
      rw [services.classes.operatorId_injective hsame, hdue] at hother
      cases hother

/-- The launches of a pass. -/
theorem launchesOf_passed [DecidableEq C] {available : Finset CapabilityId} {plan : GatherPlan O}
    {view : DataPointView}
    (hplan : services.plan gather.state.mirror gather.memory view available gather.now = .ok plan)
    (hlaunches : gather'.launches = gather.launches ++ plan.runnable.map (fun runnable =>
      ⟨runnable.operator, runnable.delta, available, runnable.isRetry⟩)) :
  launchesOf services operator gather'
    = launchesOf services operator gather + occurrences services operator
      * (services.isDue gather.state.mirror gather.memory view available gather.now
        operator).toNat
  := by
  rw [launchesOf, launchesOf, hlaunches, List.countP_append, List.countP_map,
    ← countP_runnable hplan]
  rfl

variable [DecidableEq C]

/-- An operator that is due is not running, and its breaker is not tripped. -/
theorem open_of_isDue {view : DataPointView} {available : Finset CapabilityId}
    (hdue : services.isDue gather.state.mirror gather.memory view available gather.now operator
      = true) :
  (gather.memory.view (services.operatorId operator)).running = none
    ∧ gather.memory.breaker.isTripped (services.operatorId operator) = false
  := by
  rw [GatherServices.isDue, Bool.and_eq_true, GatherServices.isOpen, Bool.and_eq_true,
    Bool.and_eq_true, Bool.not_eq_true'] at hdue
  obtain ⟨⟨⟨hidle, huntripped⟩, -⟩, -⟩ := hdue
  refine ⟨?_, huntripped⟩
  rw [OperatorMemory.view, Option.isNone_iff_eq_none.mp hidle]
  rfl

/-- What an operator without an armed retry is due for: something that it is yet to be launched
for. -/
theorem untriggered_of_isDue {observed : Dict OperatorId Revision}
    (h : WatermarksKept services gather.phase gather.state.mirror gather.state.store gather.memory
      observed)
    {available : Finset CapabilityId} {view : DataPointView}
    (hdue : services.isDue gather.state.mirror gather.memory view available gather.now operator
      = true)
    (hunarmed : (gather.memory.view (services.operatorId operator)).armed = false) :
  (gather.memory.view (services.operatorId operator)).hasData
        (services.isFresh operator gather.state.store.entries) = true
    ∨ (services.flow.policy operator).rerunOnNewData = true
      ∧ (gather.memory.view (services.operatorId operator)).lacks available = true
  := by
  have hrunning := (open_of_isDue hdue).1
  rw [GatherServices.isDue, Bool.and_eq_true] at hdue
  have hreason := hdue.2
  have hretries : gather.memory.retries.isScheduled (services.operatorId operator) = false :=
    hunarmed
  rw [hretries, if_neg Bool.false_ne_true, Bool.or_eq_true, Bool.not_eq_true'] at hreason
  rw [OperatorView.hasData, hrunning, hunarmed, Bool.not_false, Bool.true_and, Bool.or_eq_true,
    Bool.not_eq_true']
  rcases hreason with hfirst | hrerun
  · exact Or.inl (Or.inl hfirst)
  · rw [Bool.and_eq_true, GatherServices.hasNewData, Bool.and_eq_true, h.deltaFor] at hrerun
    obtain ⟨hreruns, hnew | hfresh⟩ :=
      GatherServices.fresh_of_rerunEligible h.agrees.wellFormed hrerun.1.2
    · exact Or.inr ⟨hreruns, decide_eq_true hnew⟩
    · exact Or.inl (Or.inr hfresh)

/-- What is left to come after a step. A launch that is no retry is paid with a trigger, and pays the
retries that it may come to. -/
structure Accounts (services : GatherServices P C O) (operator : O) (seen : Availability)
    (gather : Gather O) (action : GatherAction) (gather' : Gather O) (launched paid : ℕ) : Prop where
  launches : launchesOf services operator gather'
    = launchesOf services operator gather + occurrences services operator * launched
  untriggered : untriggered services operator (seen.observe action).available gather' + paid
      + seen.changes
    ≤ untriggered services operator seen.available gather + stimulus services operator action
      + (seen.observe action).changes
  retries : (gather'.memory.view (services.operatorId operator)).retriesLeft
        (maxAttempts services (services.operatorId operator)) + launched
    ≤ (gather.memory.view (services.operatorId operator)).retriesLeft
        (maxAttempts services (services.operatorId operator))
      + attempts services operator * paid

/-- A step that launches the operator does so for its retry or for a trigger. -/
theorem accounts_launched {observed : Dict OperatorId Revision} (seen : Availability)
    (h : WatermarksKept services gather.phase gather.state.mirror gather.state.store gather.memory
      observed)
    {available : Finset CapabilityId} {plan : GatherPlan O} {view : DataPointView}
    (hplan : services.plan gather.state.mirror gather.memory view available gather.now = .ok plan)
    (hdue : services.isDue gather.state.mirror gather.memory view available gather.now operator
      = true)
    (hview : gather'.memory.view (services.operatorId operator)
      = (gather.memory.view (services.operatorId operator)).launched available
        gather.state.store.revision)
    (hlaunches : gather'.launches = gather.launches ++ plan.runnable.map (fun runnable =>
      ⟨runnable.operator, runnable.delta, available, runnable.isRetry⟩))
    (hentries : gather'.state.store.entries = gather.state.store.entries)
    (hupcoming : gather'.upcoming = gather.upcoming) :
  ∃ paid, Accounts services operator seen gather (.refresh available none) gather' 1 paid
  := by
  have hlaunchesOf : launchesOf services operator gather' = _ := launchesOf_passed hplan hlaunches
  rw [hdue, Bool.toNat_true] at hlaunchesOf
  have hlacks := seen.lacks_observe (.refresh available none)
    (gather.memory.view (services.operatorId operator))
    (services.flow.policy operator).rerunOnNewData
  rw [seen.observe_refresh] at hlacks
  -- It has seen all that is stored, and all capabilities.
  have huntriggered : untriggered services operator
        (seen.observe (.refresh available none)).available gather'
      = gather.upcoming.countP (services.triggers operator) := by
    have hcaps : ((gather.memory.view (services.operatorId operator)).launched available
        gather.state.store.revision).lacks available = false :=
      decide_eq_false (not_not_intro (Finset.Subset.refl _))
    have hdata : ((gather.memory.view (services.operatorId operator)).launched available
        gather.state.store.revision).hasData
          (services.isFresh operator gather.state.store.entries) = false :=
      GatherServices.isFresh_revision h.agrees.wellFormed
    rw [untriggered, hview, hentries, hupcoming, seen.observe_refresh]
    simp only [hcaps, hdata, Bool.and_false, Bool.toNat_false, Nat.zero_add]
  have hretries : (gather'.memory.view (services.operatorId operator)).retriesLeft
        (maxAttempts services (services.operatorId operator))
      = maxAttempts services (services.operatorId operator) - 1
        - (gather.memory.view (services.operatorId operator)).failed := by
    rw [hview]
    rfl
  cases harmed : (gather.memory.view (services.operatorId operator)).armed with
  | true =>
      have hrunning := (open_of_isDue hdue).1
      refine ⟨0, hlaunchesOf, ?_, ?_⟩
      · rw [huntriggered, untriggered]
        omega
      · rw [hretries]
        simp only [OperatorView.retriesLeft, hrunning, harmed, if_true]
        omega
  | false =>
      refine ⟨1, hlaunchesOf, ?_, ?_⟩
      · rw [huntriggered, untriggered]
        rcases untriggered_of_isDue h hdue harmed with hdata | ⟨hrerun, hnew⟩
        · simp only [hdata, Bool.toNat_true]
          omega
        · simp only [hrerun, hnew, Bool.and_self, Bool.true_and, Bool.toNat_true] at hlacks ⊢
          omega
      · rw [hretries, attempts]
        omega

omit [DecidableEq C] in
/-- What an action brings from outside is among what it triggers with. -/
theorem countP_delivered_le (action : GatherAction) :
  ((delivered action).map BaseDataPoint.type).countP (services.triggers operator)
    ≤ stimulus services operator action
  := by
  unfold stimulus
  split
  · exact Nat.zero_le _
  · exact le_refl _

omit [DecidableEq C] in
/-- The DataPoints that an operator has grow by what triggers it. -/
theorem hasData_le_of_wrote (hstore : gather.state.store.WellFormed) {dataPoints : List BaseDataPoint}
    (hwrote : Wrote gather.state.store gather'.state.store dataPoints) (view : OperatorView) :
  (view.hasData (services.isFresh operator gather'.state.store.entries)).toNat
    ≤ (view.hasData (services.isFresh operator gather.state.store.entries)).toNat
      + (dataPoints.map BaseDataPoint.type).countP (services.triggers operator)
  := by
  have hfresh : ∀ since, services.isFresh operator gather'.state.store.entries since = true →
      services.isFresh operator gather.state.store.entries since = true
        ∨ 0 < (dataPoints.map BaseDataPoint.type).countP (services.triggers operator) :=
    fun since => GatherServices.isFresh_of_wrote hstore hwrote
  cases hdata : view.hasData (services.isFresh operator gather'.state.store.entries) with
  | false => exact Nat.zero_le _
  | true =>
      have hbefore : view.hasData (services.isFresh operator gather.state.store.entries) = true
          ∨ 0 < (dataPoints.map BaseDataPoint.type).countP (services.triggers operator) := by
        rw [OperatorView.hasData] at hdata ⊢
        split at hdata
        · exact hfresh _ hdata
        · rw [Bool.and_eq_true, Bool.or_eq_true] at hdata ⊢
          obtain ⟨hunarmed, hfirst | hnew⟩ := hdata
          · exact Or.inl ⟨hunarmed, Or.inl hfirst⟩
          · exact (hfresh _ hnew).imp (fun hold => ⟨hunarmed, Or.inr hold⟩) id
      rcases hbefore with hbefore | hpositive
      · rw [hbefore]
        exact Nat.le_add_right _ _
      · rw [Bool.toNat_true]
        omega

/-- What a step does to an operator is accounted for. -/
theorem Affects.accounts {observed : Dict OperatorId Revision} (seen : Availability)
    (h : WatermarksKept services gather.phase gather.state.mirror gather.state.store gather.memory
      observed)
    (hapart : (gather.memory.view (services.operatorId operator)).running.isSome = true →
      (gather.memory.view (services.operatorId operator)).armed = false)
    (haffects : Affects services operator gather action gather') :
  ∃ launched paid, Accounts services operator seen gather action gather' launched paid
  := by
  have hlacks := seen.lacks_observe action (gather.memory.view (services.operatorId operator))
    (services.flow.policy operator).rerunOnNewData
  -- Where nothing is launched, the account is kept if the triggers are.
  have hkept : launchesOf services operator gather' = launchesOf services operator gather →
      gather'.memory.view (services.operatorId operator)
        = gather.memory.view (services.operatorId operator) →
      ((gather.memory.view (services.operatorId operator)).hasData
            (services.isFresh operator gather'.state.store.entries)).toNat
          + gather'.upcoming.countP (services.triggers operator)
        ≤ ((gather.memory.view (services.operatorId operator)).hasData
              (services.isFresh operator gather.state.store.entries)).toNat
            + gather.upcoming.countP (services.triggers operator)
            + stimulus services operator action →
      ∃ launched paid, Accounts services operator seen gather action gather' launched paid := by
    intro hlaunches hview hdata
    refine ⟨0, 0, hlaunches, ?_, ?_⟩
    · rw [untriggered, untriggered, hview]
      omega
    · rw [hview]
      exact le_refl _
  have hcount : gather'.launches = gather.launches →
      launchesOf services operator gather' = launchesOf services operator gather := by
    intro hlaunches
    rw [launchesOf, hlaunches]
    rfl
  have hdelivered := @countP_delivered_le P C O _ services operator action
  cases haffects with
  | stays hview hlaunches hentries hupcoming =>
      apply hkept (hcount hlaunches) hview
      rw [hentries, hupcoming]
      exact Nat.le_add_right _ _
  | emits haction hview hlaunches hentries hupcoming =>
      apply hkept (hcount hlaunches) hview
      rw [hentries, hupcoming, List.countP_append, haction, stimulus, ← Nat.add_assoc]
  | merges hview hlaunches hwrote hupcoming =>
      apply hkept (hcount hlaunches) hview
      have hdata := @hasData_le_of_wrote P C O _ services operator gather gather'
        h.agrees.wellFormed _ hwrote (gather.memory.view (services.operatorId operator))
      rw [hupcoming, List.countP_append]
      omega
  | delivers hview hlaunches hwrote hupcoming =>
      apply hkept (hcount hlaunches) hview
      have hdata := @hasData_le_of_wrote P C O _ services operator gather gather'
        h.agrees.wellFormed _ hwrote (gather.memory.view (services.operatorId operator))
      rw [hupcoming]
      omega
  | @passes available plan haction hplan hview hlaunches hentries hupcoming =>
      cases hdue : services.isDue gather.state.mirror gather.memory gather.state.store.snapshot
          available gather.now operator with
      | true =>
          rw [hdue, if_pos rfl] at hview
          rw [haction]
          exact ⟨1, accounts_launched seen h hplan hdue hview hlaunches hentries hupcoming⟩
      | false =>
          rw [hdue, if_neg Bool.false_ne_true] at hview
          have hsame : launchesOf services operator gather' = _ := launchesOf_passed hplan hlaunches
          rw [hdue, Bool.toNat_false, Nat.mul_zero, Nat.add_zero] at hsame
          apply hkept hsame hview
          rw [hentries, hupcoming]
          exact Nat.le_add_right _ _
  | @retried observed hrunning hattempts hview hlaunches hentries hupcoming =>
      refine ⟨0, 0, hcount hlaunches, ?_, ?_⟩
      · rw [untriggered, untriggered, hview, hupcoming]
        have hdata : (gather.memory.view (services.operatorId operator)).retried.hasData
            (services.isFresh operator gather'.state.store.entries) = false := rfl
        rw [hdata]
        change _ + (_ && (gather.memory.view (services.operatorId operator)).lacks _).toNat + _ + _ + _
          ≤ _
        rw [Bool.toNat_false]
        omega
      · rw [hview]
        simp only [OperatorView.retriesLeft, hrunning, OperatorView.retried, OperatorView.recorded,
          if_true]
        omega
  | @advanced observed hrunning hview hlaunches hentries hupcoming =>
      have harmed := hapart (by rw [hrunning]; rfl)
      refine ⟨0, 0, hcount hlaunches, ?_, ?_⟩
      · have hdata : ((gather.memory.view (services.operatorId operator)).advanced observed).hasData
              (services.isFresh operator gather'.state.store.entries)
            = (gather.memory.view (services.operatorId operator)).hasData
              (services.isFresh operator gather.state.store.entries) := by
          simp only [OperatorView.hasData, hrunning, OperatorView.advanced, OperatorView.recorded,
            harmed, hentries, Bool.not_false, Bool.not_true, Bool.true_and, Bool.false_or]
        rw [untriggered, untriggered, hview, hupcoming, hdata]
        change _ + (_ && (gather.memory.view (services.operatorId operator)).lacks _).toNat + _ + _ + _
          ≤ _
        omega
      · rw [hview]
        simp only [OperatorView.retriesLeft, OperatorView.advanced, OperatorView.recorded, harmed,
          if_false, Bool.false_eq_true]
        exact Nat.zero_le _

omit [DecidableEq P] in
/-- A step that launches the operator does so within its cap. -/
theorem Affects.runsLeft [DecidableEq P] {cap : ℤ}
    (hcap : (gather.memory.view (services.operatorId operator)).cap = some cap)
    (haffects : Affects services operator gather action gather') :
  (gather'.memory.view (services.operatorId operator)).cap = some cap
    ∧ ∃ launched, launchesOf services operator gather'
        = launchesOf services operator gather + occurrences services operator * launched
      ∧ (gather'.memory.view (services.operatorId operator)).runsLeft cap + launched
        ≤ (gather.memory.view (services.operatorId operator)).runsLeft cap
  := by
  have hkept : launchesOf services operator gather' = launchesOf services operator gather →
      gather'.memory.view (services.operatorId operator)
        = gather.memory.view (services.operatorId operator) →
      (gather'.memory.view (services.operatorId operator)).cap = some cap
        ∧ ∃ launched, launchesOf services operator gather'
            = launchesOf services operator gather + occurrences services operator * launched
          ∧ (gather'.memory.view (services.operatorId operator)).runsLeft cap + launched
            ≤ (gather.memory.view (services.operatorId operator)).runsLeft cap := by
    intro hlaunches hview
    rw [hview]
    exact ⟨hcap, 0, hlaunches, le_refl _⟩
  have hcount : gather'.launches = gather.launches →
      launchesOf services operator gather' = launchesOf services operator gather := by
    intro hlaunches
    rw [launchesOf, hlaunches]
    rfl
  -- A run that is recorded was taken off the cap as it was launched.
  have hrecorded : gather'.launches = gather.launches →
      (gather.memory.view (services.operatorId operator)).running.isSome = true →
      (gather'.memory.view (services.operatorId operator)).running = none →
      (gather'.memory.view (services.operatorId operator)).cap
        = (gather.memory.view (services.operatorId operator)).cap →
      (gather'.memory.view (services.operatorId operator)).cycles
        = (gather.memory.view (services.operatorId operator)).cycles + 1 →
      (gather'.memory.view (services.operatorId operator)).cap = some cap
        ∧ ∃ launched, launchesOf services operator gather'
            = launchesOf services operator gather + occurrences services operator * launched
          ∧ (gather'.memory.view (services.operatorId operator)).runsLeft cap + launched
            ≤ (gather.memory.view (services.operatorId operator)).runsLeft cap := by
    intro hlaunches hrunning hidle hsame hcycles
    rw [hsame]
    refine ⟨hcap, 0, hcount hlaunches, ?_⟩
    rw [OperatorView.runsLeft, OperatorView.runsLeft, hidle, hrunning, hcycles, if_pos rfl]
    simp only [Option.isSome_none, Bool.false_eq_true, if_false]
    omega
  cases haffects with
  | stays hview hlaunches _ _ => exact hkept (hcount hlaunches) hview
  | emits _ hview hlaunches _ _ => exact hkept (hcount hlaunches) hview
  | merges hview hlaunches _ _ => exact hkept (hcount hlaunches) hview
  | delivers hview hlaunches _ _ => exact hkept (hcount hlaunches) hview
  | @passes available plan _ hplan hview hlaunches _ _ =>
      have hlaunchesOf : launchesOf services operator gather' = _ :=
        launchesOf_passed hplan hlaunches
      cases hdue : services.isDue gather.state.mirror gather.memory gather.state.store.snapshot
          available gather.now operator with
      | true =>
          rw [hdue, if_pos rfl] at hview
          rw [hdue, Bool.toNat_true] at hlaunchesOf
          obtain ⟨hidle, huntripped⟩ := open_of_isDue hdue
          -- The breaker has not yet counted as many runs as the cap.
          have hbelow : ((gather.memory.view (services.operatorId operator)).cycles : ℤ) < cap := by
            change gather.memory.breaker.caps.get? _ = some cap at hcap
            rw [CircuitBreaker.isTripped, hcap, decide_eq_false_iff_not, not_le] at huntripped
            exact huntripped
          rw [hview]
          refine ⟨hcap, 1, hlaunchesOf, ?_⟩
          rw [OperatorView.runsLeft, OperatorView.runsLeft, hidle]
          simp only [OperatorView.launched, Option.isSome_some, Option.isSome_none, if_true,
            Bool.false_eq_true, if_false]
          omega
      | false =>
          rw [hdue, if_neg Bool.false_ne_true] at hview
          rw [hdue, Bool.toNat_false, Nat.mul_zero, Nat.add_zero] at hlaunchesOf
          exact hkept hlaunchesOf hview
  | retried hrunning _ hview hlaunches _ _ =>
      apply hrecorded hlaunches (by rw [hrunning]; rfl) <;>
      · rw [hview]
        rfl
  | advanced hrunning hview hlaunches _ _ =>
      apply hrecorded hlaunches (by rw [hrunning]; rfl) <;>
      · rw [hview]
        rfl

end Accounts

end Gather

end Orcastork
