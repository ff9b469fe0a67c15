import Orcastork.Capabilities.Availability
import Orcastork.Library.TransitionSystem
import Orcastork.Scheduling.Debounce

/-!
# Lazy activation

An activator is refreshed with the classes that are present and the permissions of the moment. It
activates what is newly available, base before layer; an activation that fails is attempted again
by a later refresh, once its cool-off is over, until the attempts are used up. What was activated
stays so, and a refresh exposes of it what is available.

How an activation ends, the readings of the clock and the order in which a set is gone through are
arguments of the refresh. Each capability has an account of its attempts (`Account`), which every
refresh keeps (`activation_ledger`).
-/

namespace Orcastork

/-! ### Attempts -/

/-- How the activation of a capability ends. -/
inductive ActivationEnd where
  | succeeded
  /-- An error, caught at a reading of the clock. -/
  | failed (at' : Monotonic)
  /-- The refresh raises: by the constructor, the catalog, or what is no `Exception`. -/
  | raised
  deriving DecidableEq, Repr

/-- What happens to a capability. -/
inductive ActivationStep where
  /-- An attempt, by a refresh that read the clock at `now`, before it started. -/
  | attempted (now : Monotonic) (ends : ActivationEnd)
  /-- The call of `on_terminal_failure`. -/
  | terminal
  deriving DecidableEq, Repr

/-- `_ActivationFailure`. -/
structure ActivationFailure where
  attempts : ℕ
  /-- Nothing once the failure is terminal. -/
  nextAttemptAt : Option Monotonic
  deriving DecidableEq, Repr

/-- What a `CapabilityActivator` is made with. -/
structure ActivatorServices (P C O : Type) where
  declarations : Declarations P C O
  registered : Dict CapabilityId C
  maxAttempts : ℕ
  /-- A retry policy has at least one attempt. -/
  maxAttempts_pos : 0 < maxAttempts
  /-- `backoff_delays` with the jitter of a capability: the delay after an attempt, counted from
  zero. -/
  backoffDelays : CapabilityId → ℕ → Monotonic

/-- `CapabilityActivator`. A log of what happened is kept beside what the source keeps. -/
structure Activator where
  activated : Finset CapabilityId
  failures : Dict CapabilityId ActivationFailure
  steps : List (CapabilityId × ActivationStep)

/-- What a refresh is given, and how the activations in it end. -/
structure RefreshCall {P C O : Type} [DecidableEq C] (services : ActivatorServices P C O) where
  present : Finset P
  permitted : Finset CapabilityId
  preference : List CapabilityId
  now : Monotonic
  /-- The order in which the set of what is available is gone through. -/
  order : List CapabilityId
  nodup_order : order.Nodup
  toFinset_order : order.toFinset
    = services.declarations.computeAvailable services.registered permitted present
  ends : CapabilityId → ActivationEnd
  /-- Whether the callback raises, if it is called. -/
  terminalRaises : CapabilityId → Bool

/-- What is available in a refresh. -/
def RefreshCall.available {P C O : Type} [DecidableEq C] {services : ActivatorServices P C O}
    (call : RefreshCall services) : Finset CapabilityId :=
  services.declarations.computeAvailable services.registered call.permitted call.present

theorem RefreshCall.mem_order_iff {P C O : Type} [DecidableEq C] {services : ActivatorServices P C O}
    {call : RefreshCall services} {capabilityId : CapabilityId} :
  capabilityId ∈ call.order ↔ capabilityId ∈ call.available
  := by
  rw [available, ← call.toFinset_order, List.mem_toFinset]

/-- `CapabilityView`: what is exposed. -/
structure CapabilityView where
  available : Finset CapabilityId
  preference : List CapabilityId

namespace Activator

/-- Nothing was activated. -/
def initial : Activator := ⟨∅, .empty, []⟩

variable {P C O : Type} [DecidableEq C] {services : ActivatorServices P C O}
  (call : RefreshCall services) (activator : Activator)

/-- `_may_attempt`. -/
def mayAttempt (capabilityId : CapabilityId) (now : Monotonic) : Bool :=
  match activator.failures.get? capabilityId with
  | none => true
  | some failure =>
    match failure.nextAttemptAt with
    | none => false
    | some nextAttemptAt => decide (nextAttemptAt ≤ now)

/-- A step of a capability is logged. -/
def log (capabilityId : CapabilityId) (step : ActivationStep) : Activator :=
  { activator with steps := activator.steps ++ [(capabilityId, step)] }

/-- The failed attempts of a capability, with one more. -/
def failedOnceMore (capabilityId : CapabilityId) : ℕ :=
  match activator.failures.get? capabilityId with
  | none => 1
  | some failure => failure.attempts + 1

/-- `_record_failure`, and whether it returns. -/
def recordFailure (capabilityId : CapabilityId) (at' : Monotonic) : Bool × Activator :=
  let attempts := activator.failedOnceMore capabilityId
  if services.maxAttempts ≤ attempts then
    (!call.terminalRaises capabilityId,
      { activator with failures := activator.failures.set capabilityId ⟨attempts, none⟩ }.log
        capabilityId .terminal)
  else
    (true,
      { activator with
        failures := activator.failures.set capabilityId
          ⟨attempts, some (at' + services.backoffDelays capabilityId (attempts - 1))⟩ })

/-- The activation of a capability, and whether the refresh goes on. -/
def activate (capabilityId : CapabilityId) : Bool × Activator :=
  let attempted := activator.log capabilityId (.attempted call.now (call.ends capabilityId))
  match call.ends capabilityId with
  | .succeeded =>
    (true,
      { attempted with
        failures := attempted.failures.erase capabilityId
        activated := insert capabilityId attempted.activated })
  | .failed at' => attempted.recordFailure call capabilityId at'
  | .raised => (false, attempted)

/-- The capabilities of a round one after another. -/
def activateAll : List CapabilityId → Activator → Bool × Activator
  | [], activator => (true, activator)
  | capabilityId :: ids, activator =>
    match activator.activate call capabilityId with
    | (false, activator) => (false, activator)
    | (true, activator) => activateAll ids activator

variable (services) in
/-- The bases of a capability are activated. -/
def isReady (capabilityId : CapabilityId) : Bool :=
  match services.registered.get? capabilityId with
  | none => false
  | some capability =>
    services.declarations.requiresAvailable (services.declarations.capabilityRequires capability)
      activator.activated services.registered

/-- The loop that activates what is pending, for a number of rounds at most: nothing if they do not
suffice. -/
def activatePending : ℕ → List CapabilityId → Activator → Option (Bool × Activator)
  | 0, _, _ => none
  | rounds + 1, pending, activator =>
    let ready := pending.filter (activator.isReady services)
    if ready.isEmpty then
      some (true, activator)
    else
      match activateAll call ready activator with
      | (false, activator) => some (false, activator)
      | (true, activator) =>
        activatePending rounds (pending.filter (fun capabilityId => capabilityId ∉ ready)) activator

/-- What a refresh attempts to activate. -/
def pending : List CapabilityId :=
  call.order.filter (fun capabilityId =>
    decide (capabilityId ∉ activator.activated) && activator.mayAttempt capabilityId call.now)

/-- `refresh`: the view, unless it raises, and the activator then. -/
def refresh : Option (Option CapabilityView × Activator) :=
  let pending := activator.pending call
  match activatePending call (pending.length + 1) pending activator with
  | none => none
  | some (false, activator) => some (none, activator)
  | some (true, activator) =>
    some (some ⟨call.available ∩ activator.activated, call.preference⟩, activator)

variable (services) in
/-- A refresh as a step. -/
def refreshStep (activator : Activator) (call : RefreshCall services) : Option Activator :=
  (activator.refresh call).map Prod.snd

end Activator

/-! ### Accounts -/

namespace ActivationStep

/-- The reading at which a failed attempt was caught. -/
def failedAt? : ActivationStep → Option Monotonic
  | .attempted _ (.failed at') => some at'
  | _ => none

/-- The attempt succeeded. -/
def succeeds : ActivationStep → Bool
  | .attempted _ .succeeded => true
  | _ => false

end ActivationStep

/-- The steps of one capability. -/
def stepsOf (capabilityId : CapabilityId) (steps : List (CapabilityId × ActivationStep)) :
    List ActivationStep :=
  (steps.filter (fun step => decide (step.1 = capabilityId))).map Prod.snd

/-- The failures among some steps, by when they were caught. -/
def failedAttempts (steps : List ActivationStep) : List Monotonic :=
  steps.filterMap ActivationStep.failedAt?

/-- The account of a capability: it is activated once at most; it has no more failed attempts than
its policy allows; no attempt comes after a success, after the callback or before the cool-off of
the failure before it is over; and the callback is called exactly if the attempts are used up,
once, right after the last of them failed. -/
structure Account (maxAttempts : ℕ) (delays : ℕ → Monotonic) (steps : List ActivationStep) :
    Prop where
  successes : steps.countP ActivationStep.succeeds ≤ 1
  budget : (failedAttempts steps).length ≤ maxAttempts
  attempts : ∀ before now ends after, steps = before ++ .attempted now ends :: after →
    before.countP ActivationStep.succeeds = 0 ∧ .terminal ∉ before
      ∧ ∀ at', (failedAttempts before).getLast? = some at' →
        at' + delays ((failedAttempts before).length - 1) ≤ now
  calls : steps.count .terminal = if (failedAttempts steps).length = maxAttempts then 1 else 0
  called : ∀ before after, steps = before ++ .terminal :: after →
    after = [] ∧ (failedAttempts before).length = maxAttempts
      ∧ ∃ earlier now at', before = earlier ++ [.attempted now (.failed at')]

/-- An attempt can be made. -/
structure Eligible (maxAttempts : ℕ) (delays : ℕ → Monotonic) (steps : List ActivationStep)
    (now : Monotonic) : Prop where
  unsuccessful : steps.countP ActivationStep.succeeds = 0
  remaining : (failedAttempts steps).length < maxAttempts
  cooled : ∀ at', (failedAttempts steps).getLast? = some at' →
    at' + delays ((failedAttempts steps).length - 1) ≤ now

/-- Where an item stands in a list that was appended to. -/
theorem append_singleton_eq_append_cons {α : Type} {items before after : List α} {last item : α}
    (h : items ++ [last] = before ++ item :: after) :
  (items = before ∧ last = item ∧ after = [])
    ∨ ∃ after', after = after' ++ [last] ∧ items = before ++ item :: after'
  := by
  rcases List.eq_nil_or_concat after with rfl | ⟨after', last', rfl⟩
  · obtain ⟨rfl, hlast⟩ := List.append_inj' h rfl
    cases hlast
    exact Or.inl ⟨rfl, rfl, rfl⟩
  · rw [List.concat_eq_append, ← List.cons_append, ← List.append_assoc] at h
    obtain ⟨rfl, hlast⟩ := List.append_inj' h rfl
    cases hlast
    exact Or.inr ⟨after', List.concat_eq_append, rfl⟩

theorem stepsOf_append_self (capabilityId : CapabilityId)
    (steps : List (CapabilityId × ActivationStep)) (step : ActivationStep) :
  stepsOf capabilityId (steps ++ [(capabilityId, step)]) = stepsOf capabilityId steps ++ [step]
  := by
  rw [stepsOf, List.filter_append, List.map_append, stepsOf, List.filter_cons_of_pos, List.filter_nil]
  · rfl
  · exact decide_eq_true rfl

theorem stepsOf_append_of_ne {capabilityId other : CapabilityId} (h : other ≠ capabilityId)
    (steps : List (CapabilityId × ActivationStep)) (step : ActivationStep) :
  stepsOf capabilityId (steps ++ [(other, step)]) = stepsOf capabilityId steps
  := by
  rw [stepsOf, List.filter_append, List.filter_cons_of_neg, List.filter_nil, List.append_nil, stepsOf]
  exact fun hsame => h (of_decide_eq_true hsame)

theorem failedAttempts_append (steps : List ActivationStep) (step : ActivationStep) :
  failedAttempts (steps ++ [step]) = failedAttempts steps ++ step.failedAt?.toList
  := by
  rw [failedAttempts, List.filterMap_append, failedAttempts]
  congr 1

namespace Account

variable {maxAttempts : ℕ} {delays : ℕ → Monotonic} {steps : List ActivationStep} {now : Monotonic}

/-- Nothing was attempted. -/
theorem nil (hpos : 0 < maxAttempts) :
  Account maxAttempts delays []
  := by
  constructor
  · exact Nat.zero_le _
  · exact Nat.zero_le _
  · intro before now ends after h
    cases before <;> cases h
  · rw [if_neg]
    · rfl
    · exact Nat.ne_of_lt hpos
  · intro before after h
    cases before <;> cases h

/-- The callback was not called as long as an attempt can be made. -/
theorem terminal_notMem (h : Account maxAttempts delays steps)
    (heligible : Eligible maxAttempts delays steps now) :
  .terminal ∉ steps
  := by
  have hcalls := h.calls
  rw [if_neg (Nat.ne_of_lt heligible.remaining)] at hcalls
  exact List.count_eq_zero.mp hcalls

/-- The places of the attempts once another attempt is made. -/
theorem attempts_append (h : Account maxAttempts delays steps)
    (heligible : Eligible maxAttempts delays steps now) (ends : ActivationEnd) :
  ∀ before now' ends' after,
    steps ++ [.attempted now ends] = before ++ .attempted now' ends' :: after →
    before.countP ActivationStep.succeeds = 0 ∧ .terminal ∉ before
      ∧ ∀ at', (failedAttempts before).getLast? = some at' →
        at' + delays ((failedAttempts before).length - 1) ≤ now'
  := by
  intro before now' ends' after hsplit
  rcases append_singleton_eq_append_cons hsplit with ⟨rfl, hsame, -⟩ | ⟨after', -, hbefore⟩
  · cases hsame
    exact ⟨heligible.unsuccessful, h.terminal_notMem heligible, heligible.cooled⟩
  · exact h.attempts before now' ends' after' hbefore

/-- An attempt that does not use up the attempts is accounted for. -/
theorem attempt (h : Account maxAttempts delays steps)
    (heligible : Eligible maxAttempts delays steps now) {ends : ActivationEnd}
    (hremaining : (failedAttempts (steps ++ [.attempted now ends])).length < maxAttempts) :
  Account maxAttempts delays (steps ++ [.attempted now ends])
  := by
  have hterminal := h.terminal_notMem heligible
  constructor
  · rw [List.countP_append, heligible.unsuccessful, Nat.zero_add]
    exact List.countP_le_length
  · exact hremaining.le
  · exact h.attempts_append heligible ends
  · rw [if_neg (Nat.ne_of_lt hremaining), List.count_append, List.count_eq_zero_of_not_mem hterminal]
    rfl
  · intro before after hsplit
    rcases append_singleton_eq_append_cons hsplit with ⟨-, hsame, -⟩ | ⟨after', -, hbefore⟩
    · cases hsame
    · apply absurd _ hterminal
      rw [hbefore]
      exact List.mem_append_right _ List.mem_cons_self

/-- A failure that uses up the attempts is accounted for with the call of the callback. -/
theorem exhaust (h : Account maxAttempts delays steps)
    (heligible : Eligible maxAttempts delays steps now) {at' : Monotonic}
    (hexhausted : maxAttempts ≤ (failedAttempts steps).length + 1) :
  Account maxAttempts delays (steps ++ [.attempted now (.failed at')] ++ [.terminal])
  := by
  have hterminal := h.terminal_notMem heligible
  have hlength : (failedAttempts (steps ++ [.attempted now (.failed at')])).length = maxAttempts := by
    rw [failedAttempts_append, List.length_append]
    exact le_antisymm heligible.remaining hexhausted
  have hall : failedAttempts (steps ++ [.attempted now (.failed at')] ++ [.terminal])
      = failedAttempts (steps ++ [.attempted now (.failed at')]) := by
    rw [failedAttempts_append]
    exact List.append_nil _
  constructor
  · rw [List.countP_append, List.countP_append, heligible.unsuccessful]
    exact Nat.zero_le _
  · rw [hall]
    exact hlength.le
  · intro before now' ends' after hsplit
    rcases append_singleton_eq_append_cons hsplit with ⟨-, hsame, -⟩ | ⟨after', -, hbefore⟩
    · cases hsame
    · exact h.attempts_append heligible _ before now' ends' after' hbefore
  · rw [hall, if_pos hlength, List.count_append, List.count_append,
      List.count_eq_zero_of_not_mem hterminal]
    rfl
  · intro before after hsplit
    rcases append_singleton_eq_append_cons hsplit with ⟨rfl, -, rfl⟩ | ⟨after', -, hbefore⟩
    · exact ⟨rfl, hlength, steps, now, at', rfl⟩
    · rcases append_singleton_eq_append_cons hbefore with ⟨-, hsame, -⟩ | ⟨after'', -, hearlier⟩
      · cases hsame
      · apply absurd _ hterminal
        rw [hearlier]
        exact List.mem_append_right _ List.mem_cons_self

end Account

namespace Activator

/-! ### The activator keeps the accounts -/

variable {P C O : Type} [DecidableEq C] {services : ActivatorServices P C O}
  {call : RefreshCall services} {activator activator' : Activator} {capabilityId other : CapabilityId}

/-- The failure that is kept of some steps. -/
def failureOf (services : ActivatorServices P C O) (capabilityId : CapabilityId)
    (steps : List ActivationStep) : Option ActivationFailure :=
  (failedAttempts steps).getLast?.map (fun at' =>
    { attempts := (failedAttempts steps).length
      nextAttemptAt :=
        if services.maxAttempts ≤ (failedAttempts steps).length then
          none
        else
          some (at' + services.backoffDelays capabilityId ((failedAttempts steps).length - 1)) })

/-- What is kept of a capability agrees with its steps, and its account is in order. -/
structure Accounted (services : ActivatorServices P C O) (activator : Activator)
    (capabilityId : CapabilityId) : Prop where
  account : Account services.maxAttempts (services.backoffDelays capabilityId)
    (stepsOf capabilityId activator.steps)
  activated : capabilityId ∈ activator.activated
    ↔ (stepsOf capabilityId activator.steps).countP ActivationStep.succeeds ≠ 0
  failure : capabilityId ∉ activator.activated →
    activator.failures.get? capabilityId
      = failureOf services capabilityId (stepsOf capabilityId activator.steps)

/-- What is kept of a capability is the same. -/
structure Untouched (activator activator' : Activator) (capabilityId : CapabilityId) : Prop where
  activated : capabilityId ∈ activator'.activated ↔ capabilityId ∈ activator.activated
  failure : activator'.failures.get? capabilityId = activator.failures.get? capabilityId
  steps : stepsOf capabilityId activator'.steps = stepsOf capabilityId activator.steps

theorem Untouched.trans {activator'' : Activator} (h : Untouched activator activator' capabilityId)
    (h' : Untouched activator' activator'' capabilityId) :
  Untouched activator activator'' capabilityId
  := ⟨h'.activated.trans h.activated, h'.failure.trans h.failure, h'.steps.trans h.steps⟩

omit [DecidableEq C] in
/-- The account of a capability that is not touched is in order as before. -/
theorem Accounted.of_untouched (h : Accounted services activator capabilityId)
    (huntouched : Untouched activator activator' capabilityId) :
  Accounted services activator' capabilityId
  := by
  obtain ⟨haccount, hactivated, hfailure⟩ := h
  constructor
  · rw [huntouched.steps]
    exact haccount
  · rw [huntouched.steps, huntouched.activated]
    exact hactivated
  · rw [huntouched.steps, huntouched.activated, huntouched.failure]
    exact hfailure

/-- A refresh can attempt to activate a capability. -/
structure Attemptable (activator : Activator) (call : RefreshCall services)
    (capabilityId : CapabilityId) : Prop where
  inactive : capabilityId ∉ activator.activated
  mayAttempt : activator.mayAttempt capabilityId call.now = true

theorem Attemptable.of_untouched (h : Attemptable activator call capabilityId)
    (huntouched : Untouched activator activator' capabilityId) :
  Attemptable activator' call capabilityId
  := by
  constructor
  · rw [huntouched.activated]
    exact h.inactive
  · rw [Activator.mayAttempt, huntouched.failure]
    exact h.mayAttempt

/-- A capability that can be attempted has attempts left, and its cool-off is over. -/
theorem Attemptable.eligible (h : Attemptable activator call capabilityId)
    (haccounted : Accounted services activator capabilityId) :
  Eligible services.maxAttempts (services.backoffDelays capabilityId)
    (stepsOf capabilityId activator.steps) call.now
  := by
  obtain ⟨hinactive, hmay⟩ := h
  have hsuccesses := mt haccounted.activated.mpr hinactive
  rw [not_not] at hsuccesses
  rw [Activator.mayAttempt, haccounted.failure hinactive, failureOf] at hmay
  cases hlast : (failedAttempts (stepsOf capabilityId activator.steps)).getLast? with
  | none =>
      constructor
      · exact hsuccesses
      · rw [List.getLast?_eq_none_iff.mp hlast]
        exact services.maxAttempts_pos
      · intro at' hat
        rw [hlast] at hat
        cases hat
  | some last =>
      rw [hlast, Option.map_some] at hmay
      simp only at hmay
      split at hmay
      · cases hmay
      · rename_i nextAttemptAt hnext
        split at hnext
        · cases hnext
        · rename_i hremaining
          cases hnext
          constructor
          · exact hsuccesses
          · exact Nat.lt_of_not_le hremaining
          · intro at' hat
            rw [hlast] at hat
            cases hat
            exact of_decide_eq_true hmay

/-- An attempt touches no other capability. -/
theorem untouched_activate (h : capabilityId ≠ other) :
  Untouched activator (activator.activate call capabilityId).2 other
  := by
  have hlog : ∀ (step : ActivationStep), stepsOf other (activator.log capabilityId step).steps
      = stepsOf other activator.steps := fun step => stepsOf_append_of_ne h _ step
  rw [activate]
  split
  · constructor
    · rw [Finset.mem_insert]
      constructor
      · exact fun hmem => hmem.resolve_left h.symm
      · exact Or.inr
    · rw [Dict.get?_erase, if_neg h]
      rfl
    · exact hlog _
  · rw [recordFailure]
    split
    · constructor
      · rfl
      · exact Dict.get?_set_of_ne _ h _
      · rw [log, stepsOf_append_of_ne h]
        exact hlog _
    · constructor
      · rfl
      · exact Dict.get?_set_of_ne _ h _
      · exact hlog _
  · exact ⟨Iff.rfl, rfl, hlog _⟩

omit [DecidableEq C] in
/-- The failures that are recorded, counted with the new one. -/
theorem failedOnceMore_eq (haccounted : Accounted services activator capabilityId)
    (hinactive : capabilityId ∉ activator.activated) :
  activator.failedOnceMore capabilityId
    = (failedAttempts (stepsOf capabilityId activator.steps)).length + 1
  := by
  rw [failedOnceMore, haccounted.failure hinactive, failureOf]
  cases hlast : (failedAttempts (stepsOf capabilityId activator.steps)).getLast? with
  | none =>
      rw [List.getLast?_eq_none_iff.mp hlast]
      rfl
  | some last => rfl

/-- An attempt is accounted for. -/
theorem accounted_activate (haccounted : Accounted services activator capabilityId)
    (hattemptable : Attemptable activator call capabilityId) :
  Accounted services (activator.activate call capabilityId).2 capabilityId
  := by
  have heligible := hattemptable.eligible haccounted
  have hinactive := hattemptable.inactive
  have hattempts := failedOnceMore_eq haccounted hinactive
  obtain ⟨haccount, hactivated, hfailure⟩ := haccounted
  rw [activate]
  cases hends : call.ends capabilityId with
  | succeeded =>
      have hsame : failedAttempts (stepsOf capabilityId activator.steps
          ++ [.attempted call.now .succeeded])
          = failedAttempts (stepsOf capabilityId activator.steps) := by
        rw [failedAttempts_append]
        exact List.append_nil _
      constructor
      · simp only [log, stepsOf_append_self]
        apply haccount.attempt heligible
        rw [hsame]
        exact heligible.remaining
      · simp only [log, stepsOf_append_self]
        rw [List.countP_append, heligible.unsuccessful]
        constructor
        · exact fun _ => Nat.one_ne_zero
        · exact fun _ => Finset.mem_insert_self _ _
      · intro hinactive'
        exact absurd (Finset.mem_insert_self _ _) hinactive'
  | failed at' =>
      have hfailed : failedAttempts (stepsOf capabilityId activator.steps
          ++ [.attempted call.now (.failed at')])
          = failedAttempts (stepsOf capabilityId activator.steps) ++ [at'] := by
        rw [failedAttempts_append]
        rfl
      have hunsuccessful : ∀ rest : List ActivationStep,
          rest.countP ActivationStep.succeeds = 0 →
          (capabilityId ∈ activator.activated
            ↔ (stepsOf capabilityId activator.steps
              ++ [ActivationStep.attempted call.now (.failed at')] ++ rest).countP ActivationStep.succeeds ≠ 0) := by
        intro rest hrest
        rw [List.countP_append, List.countP_append, hrest, hactivated]
        rfl
      simp only [recordFailure]
      rw [show (activator.log capabilityId (.attempted call.now (.failed at'))).failedOnceMore
        capabilityId = activator.failedOnceMore capabilityId from rfl, hattempts]
      split
      · rename_i hexhausted
        have hsame : failedAttempts (stepsOf capabilityId activator.steps
            ++ [.attempted call.now (.failed at')] ++ [.terminal])
            = failedAttempts (stepsOf capabilityId activator.steps) ++ [at'] := by
          rw [failedAttempts_append, hfailed]
          exact List.append_nil _
        constructor
        · simp only [log, stepsOf_append_self]
          exact haccount.exhaust heligible hexhausted
        · simp only [log, stepsOf_append_self]
          exact hunsuccessful _ rfl
        · intro _
          simp only [log, stepsOf_append_self]
          rw [failureOf, hsame, List.getLast?_concat, List.length_append, List.length_singleton,
            Option.map_some,
            if_pos hexhausted]
          exact Dict.get?_set_self _ _ _
      · rename_i hremaining
        constructor
        · simp only [log, stepsOf_append_self]
          apply haccount.attempt heligible
          rw [hfailed, List.length_append]
          exact Nat.lt_of_not_le hremaining
        · simp only [log, stepsOf_append_self]
          have hcount := hunsuccessful [] rfl
          rw [List.append_nil] at hcount
          exact hcount
        · intro _
          simp only [log, stepsOf_append_self]
          rw [failureOf, hfailed, List.getLast?_concat, List.length_append, List.length_singleton,
            Option.map_some,
            if_neg hremaining]
          exact Dict.get?_set_self _ _ _
  | raised =>
      have hsame : failedAttempts (stepsOf capabilityId activator.steps
          ++ [.attempted call.now .raised])
          = failedAttempts (stepsOf capabilityId activator.steps) := by
        rw [failedAttempts_append]
        exact List.append_nil _
      constructor
      · simp only [log, stepsOf_append_self]
        apply haccount.attempt heligible
        rw [hsame]
        exact heligible.remaining
      · simp only [log, stepsOf_append_self]
        rw [List.countP_append, hactivated]
        rfl
      · intro _
        simp only [log, stepsOf_append_self]
        rw [failureOf, hsame]
        exact hfailure hinactive

/-! ### Refreshes -/

/-- A round touches no capability that is not in it. -/
theorem untouched_activateAll {ids : List CapabilityId} (h : other ∉ ids) :
  Untouched activator (activateAll call ids activator).2 other
  := by
  induction ids generalizing activator with
  | nil => exact ⟨Iff.rfl, rfl, rfl⟩
  | cons capabilityId ids ih =>
      rw [List.mem_cons, not_or] at h
      have hfirst := @untouched_activate P C O _ services call activator capabilityId other
        (Ne.symm h.1)
      rw [activateAll]
      split
      · rename_i activator' hactivate
        rw [hactivate] at hfirst
        exact hfirst
      · rename_i activator' hactivate
        rw [hactivate] at hfirst
        exact hfirst.trans (ih h.2)

/-- A round of capabilities that can be attempted is accounted for. -/
theorem accounted_activateAll {ids : List CapabilityId} (hnodup : ids.Nodup)
    (hattemptable : ∀ capabilityId ∈ ids, Attemptable activator call capabilityId)
    (haccounted : ∀ capabilityId, Accounted services activator capabilityId) :
  ∀ capabilityId, Accounted services (activateAll call ids activator).2 capabilityId
  := by
  induction ids generalizing activator with
  | nil => exact haccounted
  | cons first ids ih =>
      obtain ⟨hnew, hnodup⟩ := List.nodup_cons.mp hnodup
      obtain ⟨hfirst, hrest⟩ := List.forall_mem_cons.mp hattemptable
      have hactivated : ∀ capabilityId,
          Accounted services (activator.activate call first).2 capabilityId := by
        intro capabilityId
        by_cases hsame : first = capabilityId
        · rw [← hsame]
          exact accounted_activate (haccounted first) hfirst
        · exact (haccounted capabilityId).of_untouched (untouched_activate hsame)
      rw [activateAll]
      split
      · rename_i activator' hactivate
        rw [hactivate] at hactivated
        exact hactivated
      · rename_i activator' hactivate
        rw [hactivate] at hactivated
        apply ih hnodup _ hactivated
        intro capabilityId hmem
        have huntouched := @untouched_activate P C O _ services call activator first capabilityId (by
          rintro rfl
          exact hnew hmem)
        rw [hactivate] at huntouched
        exact (hrest capabilityId hmem).of_untouched huntouched

/-- The loop ends within as many rounds as there are pending capabilities, and one to find that
nothing is ready; its attempts are accounted for. -/
theorem accounted_activatePending {rounds : ℕ} {pending : List CapabilityId}
    (hrounds : pending.length < rounds) (hnodup : pending.Nodup)
    (hattemptable : ∀ capabilityId ∈ pending, Attemptable activator call capabilityId)
    (haccounted : ∀ capabilityId, Accounted services activator capabilityId) :
  ∃ ended, activatePending call rounds pending activator = some ended
    ∧ ∀ capabilityId, Accounted services ended.2 capabilityId
  := by
  induction rounds generalizing pending activator with
  | zero => cases hrounds
  | succ rounds ih =>
      rw [activatePending]
      split
      · exact ⟨_, rfl, haccounted⟩
      · rename_i hready
        have hround := accounted_activateAll (hnodup.filter (activator.isReady services))
          (fun capabilityId hmem => hattemptable capabilityId (List.mem_of_mem_filter hmem))
          haccounted
        split
        · rename_i activator' hactivate
          rw [hactivate] at hround
          exact ⟨_, rfl, hround⟩
        · rename_i activator' hactivate
          rw [hactivate] at hround
          apply ih _ (hnodup.filter _) _ hround
          · -- What was ready is pending no more.
            apply Nat.lt_of_lt_of_le _ (Nat.le_of_lt_succ hrounds)
            apply List.length_filter_lt_length_iff_exists.mpr
            rw [List.isEmpty_iff] at hready
            obtain ⟨capabilityId, hmem⟩ := List.exists_mem_of_ne_nil _ hready
            use capabilityId, List.mem_of_mem_filter hmem
            rw [decide_eq_true_eq, not_not]
            exact hmem
          · intro capabilityId hmem
            obtain ⟨hpending, hnot⟩ := List.mem_filter.mp hmem
            rw [decide_eq_true_eq] at hnot
            have huntouched := @untouched_activateAll P C O _ services call activator capabilityId
              _ hnot
            rw [hactivate] at huntouched
            exact (hattemptable capabilityId hpending).of_untouched huntouched

/-- What a refresh attempts can be attempted. -/
theorem attemptable_pending :
  (activator.pending call).Nodup
    ∧ ∀ capabilityId ∈ activator.pending call, Attemptable activator call capabilityId
  := by
  constructor
  · exact call.nodup_order.filter _
  · intro capabilityId hmem
    obtain ⟨-, hpending⟩ := List.mem_filter.mp hmem
    rw [Bool.and_eq_true, decide_eq_true_eq] at hpending
    exact ⟨hpending.1, hpending.2⟩

/-- A refresh comes to its end, and its attempts are accounted for. -/
theorem accounted_refresh (call : RefreshCall services)
    (haccounted : ∀ capabilityId, Accounted services activator capabilityId) :
  ∃ activator', refreshStep services activator call = some activator'
    ∧ ∀ capabilityId, Accounted services activator' capabilityId
  := by
  obtain ⟨hnodup, hattemptable⟩ := @attemptable_pending P C O _ services call activator
  obtain ⟨⟨returned, activator'⟩, hended, haccounted'⟩ := accounted_activatePending
    (Nat.lt_succ_self _) hnodup hattemptable haccounted
  use activator'
  refine ⟨?_, haccounted'⟩
  rw [refreshStep, refresh]
  simp only [hended]
  cases returned with
  | true => rfl
  | false => rfl

omit [DecidableEq C] in
/-- Nothing was attempted at the start. -/
theorem accounted_initial (services : ActivatorServices P C O) (capabilityId : CapabilityId) :
  Accounted services .initial capabilityId
  := by
  constructor
  · exact .nil services.maxAttempts_pos
  · constructor
    · intro hmem
      cases hmem
    · exact fun h => absurd rfl h
  · exact fun _ => rfl

/-- Refreshes come to their ends, and the account of every capability is in order after them. -/
theorem activation_ledger (services : ActivatorServices P C O) (calls : List (RefreshCall services)) :
  ∃ activator, TransitionSystem.run (refreshStep services) .initial calls = some activator
    ∧ ∀ capabilityId, Account services.maxAttempts (services.backoffDelays capabilityId)
      (stepsOf capabilityId activator.steps)
  := by
  have hrun : ∀ (activator : Activator),
      (∀ capabilityId, Accounted services activator capabilityId) →
      ∃ activator', TransitionSystem.run (refreshStep services) activator calls = some activator'
        ∧ ∀ capabilityId, Accounted services activator' capabilityId := by
    induction calls with
    | nil => exact fun activator haccounted => ⟨activator, rfl, haccounted⟩
    | cons call calls ih =>
        intro activator haccounted
        obtain ⟨next, hnext, hnextAccounted⟩ := accounted_refresh call haccounted
        obtain ⟨activator', hrest, haccounted'⟩ := ih next hnextAccounted
        refine ⟨activator', ?_, haccounted'⟩
        apply TransitionSystem.run_cons_eq_some.mpr
        exact ⟨next, hnext, hrest⟩
  obtain ⟨activator, hrun, haccounted⟩ := hrun .initial (accounted_initial services)
  exact ⟨activator, hrun, fun capabilityId => (haccounted capabilityId).account⟩

end Activator

end Orcastork
