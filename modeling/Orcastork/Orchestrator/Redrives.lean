import Orcastork.Adapters.Memory.DurableStore
import Orcastork.Library.Endless
import Orcastork.Orchestrator.DeliveryBudget
import Orcastork.Orchestrator.SessionRun
import Orcastork.Scheduling.Debounce

/-!
# Re-drives within a run

The loop of `_run` gathers, aggregates and looks at the inbox; it goes around again, on the same
epoch, as long as entries are pending. A pass of it that enters its gather loop drains the inbox,
which takes from the delivery budget of what is pending. The gather loop is entered only before
its deadline, though, and `_prepare_redrive` grants no more than a fresh `session_deadline`. So
the loop ends, however few entries are appended, if and only if again and again that is longer than
a pass takes to come to its gather loop (`redrives_end_iff`).
-/

namespace Orcastork

/-! ### The loop -/

/-- What the loop reads of how an orchestrator is configured, and the epoch it has acquired. -/
structure RedriveConfig where
  epoch : Epoch
  aggregators : List OperatorId
  sessionDeadline : Monotonic
  maxInboxDeliveries : ℤ

/-- What becomes of the calls of a drain. -/
structure DrainAttempts where
  batch : ApplyAttempt
  single : ℕ → ApplyAttempt
  ackFenced : ℕ → Option String
  quarantine : ℕ → QuarantineAttempt

/-- A drain with the epoch and the cap of the orchestrator. -/
def DrainAttempts.call (attempts : DrainAttempts) (config : RedriveConfig) : DrainCall where
  epoch := config.epoch
  maxInboxDeliveries := config.maxInboxDeliveries
  batch := attempts.batch
  single := attempts.single
  ackFenced := attempts.ackFenced
  quarantine := attempts.quarantine

/-- Emissions that are merged at once. -/
structure EmissionBatch where
  now : Timestamp
  faults : MergeFaults
  emitted : List Emitted

/-- A pass over the body of the gather loop: the clock at the loop's condition, what was appended
to the inbox before the drain, and what is merged after it. -/
structure GatherTurn where
  now : Monotonic
  arrived : List String
  attempts : DrainAttempts
  batches : List EmissionBatch

/-- A pass over the loop of `_run`, as far as it is open: the operators and aggregators are chosen
by the pass, and so is what is appended to the inbox meanwhile. The gather loop is left after the
last turn, or by the deadline. -/
structure RedrivePass where
  /-- The clock when `_gather` begins. -/
  started : Monotonic
  wallClock : Timestamp
  first : GatherTurn
  rest : List GatherTurn
  /-- What `_drain_remaining` merges. -/
  remaining : List EmissionBatch
  parks : Bool
  /-- The aggregators that are finalized and marked. -/
  contributed : List OperatorId
  /-- What else was appended by the time the inbox is looked at. -/
  arrivedLate : List String
  /-- An error that escapes from anything else. -/
  escapes : Option OrchestrationError

/-- What the loop reads and changes. -/
structure RedriveState extends DrainState where
  durable : DurableStore
  freshDeadline : Bool

/-- `_remaining_session_budget`. -/
def SessionState.remainingSessionBudget (store : SessionState) (sessionDeadline : Monotonic)
    (freshDeadline : Bool) (wallClock : Timestamp) (epoch : Epoch) :
    Except OrchestrationError (Monotonic × SessionState) :=
  let renewed : Except OrchestrationError (Monotonic × SessionState) :=
    match store.setSessionDeadline (wallClock + sessionDeadline) epoch with
    | .error error => .error error
    | .ok store => .ok (sessionDeadline, store)
  match store.deadline with
  | none => renewed
  | some stored => if freshDeadline then renewed else .ok (stored - wallClock, store)

/-- A budget is granted without a change to what is stored; a fresh one is the configured one. -/
theorem SessionState.remainingSessionBudget_eq_ok {store store' : SessionState}
    {sessionDeadline granted : Monotonic} {freshDeadline : Bool} {wallClock : Timestamp}
    {epoch : Epoch}
    (h : store.remainingSessionBudget sessionDeadline freshDeadline wallClock epoch
      = .ok (granted, store')) :
  store'.entries = store.entries ∧ store'.revision = store.revision
    ∧ store'.watermarks = store.watermarks
    ∧ (store.maxEpoch ≤ epoch → store'.maxEpoch ≤ epoch)
    ∧ (freshDeadline = true → granted = sessionDeadline)
  := by
  have hrenewed : ∀ {granted : Monotonic} {store' : SessionState},
      (match store.setSessionDeadline (wallClock + sessionDeadline) epoch with
        | .error error => .error error
        | .ok store => .ok (sessionDeadline, store))
        = (.ok (granted, store') : Except OrchestrationError (Monotonic × SessionState)) →
      store'.entries = store.entries ∧ store'.revision = store.revision
        ∧ store'.watermarks = store.watermarks
        ∧ (store.maxEpoch ≤ epoch → store'.maxEpoch ≤ epoch)
        ∧ (freshDeadline = true → granted = sessionDeadline) := by
    intro granted store' h
    split at h
    · cases h
    · rename_i renewed hset
      cases h
      rcases Nat.lt_or_ge epoch store.maxEpoch with hlt | hle
      · rw [SessionState.setSessionDeadline, SessionState.guardEpoch_of_lt hlt] at hset
        cases hset
      · rw [SessionState.setSessionDeadline, SessionState.guardEpoch_of_le hle] at hset
        cases hset
        refine ⟨rfl, rfl, rfl, fun _ => Nat.le_refl _, fun _ => rfl⟩
  rw [remainingSessionBudget] at h
  split at h
  · apply hrenewed h
  · split at h
    · apply hrenewed h
    · rename_i hstale
      cases h
      refine ⟨rfl, rfl, rfl, id, fun hfresh => absurd hfresh hstale⟩

/-- A budget is granted to every epoch that the store accepts. -/
theorem SessionState.remainingSessionBudget_of_le {store : SessionState} {epoch : Epoch}
    (h : store.maxEpoch ≤ epoch) (sessionDeadline : Monotonic) (freshDeadline : Bool)
    (wallClock : Timestamp) :
  ∃ granted store', store.remainingSessionBudget sessionDeadline freshDeadline wallClock epoch
    = .ok (granted, store')
  := by
  rw [remainingSessionBudget, SessionState.setSessionDeadline, SessionState.guardEpoch_of_le h]
  split
  · refine ⟨_, _, rfl⟩
  · split
    · refine ⟨_, _, rfl⟩
    · refine ⟨_, _, rfl⟩

namespace RedriveState

/-- Payloads appended to the inbox. -/
def arrive (payloads : List String) (state : RedriveState) : RedriveState :=
  { state with
    inbox := payloads.foldl (fun inbox payload => (inbox.append payload).2) state.inbox }

/-- `_remaining_session_budget`. -/
def remainingSessionBudget (config : RedriveConfig) (wallClock : Timestamp)
    (state : RedriveState) : Except OrchestrationError Monotonic × RedriveState :=
  match state.store.remainingSessionBudget config.sessionDeadline state.freshDeadline wallClock
      config.epoch with
  | .error error => (.error error, state)
  | .ok (budget, store) => (.ok budget, { state with store := store })

variable (services : DrainServices) (decode : Decoder) (config : RedriveConfig)

/-- `_drain_inbox`. -/
def drain (attempts : DrainAttempts) : Raising OrchestrationError RedriveState := fun state =>
  let (outcome, drained) :=
    DrainState.drainInbox services decode (attempts.call config) state.toDrainState
  (outcome, { state with toDrainState := drained })

/-- `_merge_emissions`. -/
def mergeBatch (batch : EmissionBatch) : Raising OrchestrationError RedriveState := fun state =>
  let (outcome, merged) := state.toMergeState.mergeEmissions services.toMergeServices
    ⟨config.epoch, batch.now, batch.faults⟩ batch.emitted
  (outcome, { state with toMergeState := merged })

/-- The body of the gather loop. -/
def turn (turn : GatherTurn) : Raising OrchestrationError RedriveState := fun state =>
  Raising.andThen (drain services decode config turn.attempts)
    (.each (mergeBatch services config) turn.batches) (state.arrive turn.arrived)

/-- The gather loop. -/
def gatherLoop (deadline : Monotonic) : List GatherTurn → Raising OrchestrationError RedriveState
  | [] => .skip
  | next :: turns => fun state =>
    if next.now < deadline then
      Raising.andThen (turn services decode config next) (gatherLoop deadline turns) state
    else
      (.ok (), state)

/-- `_gather`. -/
def gather (pass : RedrivePass) : Raising OrchestrationError RedriveState := fun state =>
  match state.remainingSessionBudget config pass.wallClock with
  | (.error error, state) => (.error error, state)
  | (.ok budget, state) =>
    Raising.andThen
      (gatherLoop services decode config (pass.started + budget) (pass.first :: pass.rest))
      (.each (mergeBatch services config) pass.remaining) state

/-- `mark_contribution`. -/
def contribute (operatorId : OperatorId) : Raising OrchestrationError RedriveState := fun state =>
  match state.durable.markContribution services.sealing.sessionId operatorId config.epoch with
  | (.error error, durable) => (.error error, { state with durable := durable })
  | (.ok _, durable) => (.ok (), { state with durable := durable })

/-- `_prepare_redrive`. -/
def prepareRedrive (state : RedriveState) : RedriveState :=
  { state with
    durable := config.aggregators.foldl
      (fun durable operatorId =>
        durable.clearContribution services.sealing.sessionId operatorId) state.durable
    freshDeadline := true }

/-- How a run ends on an error. -/
def endOf (error : OrchestrationError) : Status :=
  if error.isStaleEpoch then .superseded else .failed

/-- A pass over the loop of `_run`: how the run ends, or the state it goes around with. -/
def iterate (pass : RedrivePass) (state : RedriveState) : Except Status RedriveState :=
  match gather services decode config pass state with
  | (.error error, _) => .error (endOf error)
  | (.ok (), state) =>
    if pass.parks then
      .error .parked
    else
      match Raising.each (contribute services config) pass.contributed state with
      | (.error error, _) => .error (endOf error)
      | (.ok (), state) =>
        match pass.escapes with
        | some error => .error (endOf error)
        | none =>
          let state := { state.arrive pass.arrivedLate with archive := state.archive.flush.2 }
          if 0 < state.inbox.pendingCount then
            .ok (state.prepareRedrive services config)
          else
            .error .completed

/-- The loop goes around, while it does. -/
def step (state : RedriveState) (pass : RedrivePass) : Option RedriveState :=
  (iterate services decode config pass state).toOption

end RedriveState

namespace RedrivePass

/-- How long a pass takes to come to its gather loop. -/
def latency (pass : RedrivePass) : Monotonic := pass.first.now - pass.started

/-- What is appended to the inbox in a pass. -/
def arrivals (pass : RedrivePass) : List String :=
  (pass.first :: pass.rest).flatMap GatherTurn.arrived ++ pass.arrivedLate

/-- When a pass reads the clock. -/
def times (pass : RedrivePass) : List Monotonic :=
  pass.started :: (pass.first :: pass.rest).map GatherTurn.now

/-- The clock runs forward through the passes. -/
def RunForward (passes : ℕ → RedrivePass) : Prop :=
  ∀ n, (passes n).times.Pairwise (· ≤ ·) ∧ ∀ time ∈ (passes n).times, time ≤ (passes (n + 1)).started

/-- The inbox receives finitely many entries. -/
def FinitelyManyArrivals (passes : ℕ → RedrivePass) : Prop :=
  ∃ k, ∀ n ≥ k, (passes n).arrivals = []

end RedrivePass

/-! ### Appended entries -/

namespace InboxState

variable {inbox : InboxState} {payload : String}

theorem pendingIds_append :
  (inbox.append payload).2.pendingIds = inbox.pendingIds ++ [inbox.nextId]
  := by
  rw [pendingIds, append, List.map_append]
  rfl

/-- An appended entry has the deliveries of the cap. -/
theorem budget_append (maxInboxDeliveries : ℤ) :
  (inbox.append payload).2.budget maxInboxDeliveries
    = inbox.budget maxInboxDeliveries + (maxInboxDeliveries.toNat + 1)
  := by
  rw [budget, append, List.map_append, List.sum_append, List.map_singleton, List.sum_singleton,
    Message.budget, Nat.cast_zero, Int.sub_zero]
  rfl

end InboxState

namespace RedriveState

/-- The mirror agrees with the store, and the entries of the inbox are told apart by their ids. -/
structure Sound (state : RedriveState) : Prop where
  agrees : Agrees state.mirror state.store
  nodup : state.inbox.pendingIds.Nodup
  below : ∀ entryId ∈ state.inbox.pendingIds, entryId < state.inbox.nextId

/-- The delivery budget of what is pending. -/
def budget (config : RedriveConfig) (state : RedriveState) : ℕ :=
  state.inbox.budget config.maxInboxDeliveries

/-- What appended entries add to the budget. -/
def income (config : RedriveConfig) (payloads : List String) : ℕ :=
  payloads.length * (config.maxInboxDeliveries.toNat + 1)

theorem income_append (config : RedriveConfig) (payloads others : List String) :
  income config (payloads ++ others) = income config payloads + income config others
  := by
  rw [income, List.length_append, Nat.add_mul]
  rfl

variable {services : DrainServices} {decode : Decoder} {config : RedriveConfig}
  {state : RedriveState}

theorem Sound.append (h : state.Sound) (payload : String) :
  Sound { state with inbox := (state.inbox.append payload).2 }
  := by
  constructor
  · apply h.agrees
  · rw [InboxState.pendingIds_append, List.nodup_append]
    use h.nodup, List.nodup_singleton _
    rintro entryId hmem _ hnext rfl
    rw [List.mem_singleton] at hnext
    apply Nat.ne_of_lt (h.below entryId hmem) hnext
  · intro entryId hmem
    rw [InboxState.pendingIds_append, List.mem_append, List.mem_singleton] at hmem
    apply Nat.lt_succ_of_le
    rcases hmem with hmem | rfl
    · apply Nat.le_of_lt (h.below entryId hmem)
    · apply Nat.le_refl

/-- Entries that are appended pay their way. -/
theorem Sound.arrive (h : state.Sound) (payloads : List String) :
  (state.arrive payloads).Sound
    ∧ (state.arrive payloads).budget config = state.budget config + income config payloads
    ∧ (state.arrive payloads).inbox.pendingCount = state.inbox.pendingCount + payloads.length
  := by
  induction payloads generalizing state with
  | nil =>
      rw [income, List.length_nil, Nat.zero_mul]
      use h
      constructor
      · rfl
      · rfl
  | cons payload payloads ih =>
      obtain ⟨hsound, hbudget, hpending⟩ := ih (h.append payload)
      use hsound
      constructor
      · have hone := @InboxState.budget_append state.inbox payload config.maxInboxDeliveries
        have hsplit : income config (payload :: payloads)
            = config.maxInboxDeliveries.toNat + 1 + income config payloads := by
          rw [income, income, List.length_cons, Nat.succ_mul, Nat.add_comm]
        rw [hsplit, ← Nat.add_assoc, RedriveState.budget, RedriveState.budget, ← hone]
        apply hbudget
      · rw [List.length_cons, Nat.add_comm payloads.length, ← Nat.add_assoc]
        have hone : (state.inbox.append payload).2.pendingCount = state.inbox.pendingCount + 1 := by
          rw [InboxState.pendingCount, InboxState.append, List.length_append]
          rfl
        rw [← hone]
        apply hpending

/-! ### What a pass takes -/

theorem agrees_mergeEmissions {services : MergeServices} {call : MergeCall} {merge : MergeState}
    (h : Agrees merge.mirror merge.store) (emitted : List Emitted) :
  Agrees (merge.mergeEmissions services call emitted).2.mirror
    (merge.mergeEmissions services call emitted).2.store
  := by
  rw [MergeState.mergeEmissions]
  split
  · apply h
  · split
    · rename_i hwrite
      rw [MergeState.write_eq_error h hwrite]
      apply h
    · rename_i result written hwrite
      obtain ⟨-, hagrees, -, -⟩ := MergeState.write_eq_ok h hwrite
      obtain ⟨hmirror, hstore⟩ :=
        @MergeState.mergeBookkeeping_frame services call written emitted result.outcomes
      rw [hmirror, hstore]
      apply hagrees

/-- Merging leaves the inbox as it is. -/
theorem Sound.mergeBatches (h : state.Sound) (batches : List EmissionBatch) :
  Raising.Ensures (Raising.each (mergeBatch services config) batches state)
    (fun state' => state'.Sound ∧ state'.inbox = state.inbox) (fun _ _ => True)
  := by
  apply @Raising.Ensures.each OrchestrationError RedriveState EmissionBatch (fun _ _ => True) _
    (fun _ state' => state'.Sound ∧ state'.inbox = state.inbox)
  · rintro done batch rest merging - ⟨hsound, hinbox⟩
    have hagrees := @agrees_mergeEmissions services.toMergeServices
      ⟨config.epoch, batch.now, batch.faults⟩ merging.toMergeState hsound.agrees batch.emitted
    rcases hmerge : mergeBatch services config batch merging with ⟨outcome, merged⟩
    obtain rfl : merged
        = { merging with
            toMergeState := (merging.toMergeState.mergeEmissions services.toMergeServices
              ⟨config.epoch, batch.now, batch.faults⟩ batch.emitted).2 } := by
      have hsecond := congrArg Prod.snd hmerge
      apply hsecond.symm
    cases outcome with
    | ok _ => use ⟨hagrees, hsound.nodup, hsound.below⟩, hinbox
    | error error => trivial
  · use h

/-- A drain takes from the budget what there is to deliver. -/
theorem Sound.drain (h : state.Sound) (attempts : DrainAttempts) :
  Raising.Ensures (RedriveState.drain services decode config attempts state)
    (fun state' => state'.Sound
      ∧ state'.budget config + state.inbox.pendingCount ≤ state.budget config)
    (fun _ _ => True)
  := by
  have hdrain := @DrainState.ensures_drainInbox services decode (attempts.call config)
    state.toDrainState h.agrees h.nodup
  have hnext := @DrainState.nextId_drainInbox services decode (attempts.call config)
    state.toDrainState
  rw [RedriveState.drain]
  generalize DrainState.drainInbox services decode (attempts.call config) state.toDrainState
    = result at hdrain hnext ⊢
  obtain ⟨outcome, drained⟩ := result
  cases outcome with
  | error error => trivial
  | ok _ =>
      obtain ⟨hagrees, hdrained, -⟩ := hdrain
      refine ⟨⟨hagrees, ?nodup, ?below⟩, hdrained.budget⟩
      case nodup => apply h.nodup.sublist hdrained.pendingIds
      case below =>
        intro entryId hmem
        rw [hnext]
        apply h.below entryId (hdrained.pendingIds.subset hmem)

/-- A pass over the body of the gather loop takes from the budget what was pending. -/
theorem Sound.turn (h : state.Sound) (turn : GatherTurn) :
  Raising.Ensures (RedriveState.turn services decode config turn state)
    (fun state' => state'.Sound ∧ state'.budget config + state.inbox.pendingCount
      ≤ state.budget config + income config turn.arrived)
    (fun _ _ => True)
  := by
  obtain ⟨harrived, hbudget, hpending⟩ := @Sound.arrive config state h turn.arrived
  apply Raising.Ensures.andThen (harrived.drain turn.attempts)
  rintro drained ⟨hdrained, htaken⟩
  apply (hdrained.mergeBatches turn.batches).mono
  · rintro merged ⟨hmerged, hinbox⟩
    use hmerged
    rw [budget, hinbox]
    rw [hbudget, hpending, budget] at htaken
    omega
  · intro _ _ _
    trivial

/-- So does the gather loop, if it is entered. -/
theorem Sound.gatherLoop (h : state.Sound) (deadline : Monotonic) (turns : List GatherTurn) :
  Raising.Ensures (RedriveState.gatherLoop services decode config deadline turns state)
    (fun state' => state'.Sound ∧ state'.budget config
      ≤ state.budget config + income config (turns.flatMap GatherTurn.arrived))
    (fun _ _ => True)
  := by
  induction turns generalizing state with
  | nil => use h, Nat.le_add_right _ _
  | cons next turns ih =>
      rw [RedriveState.gatherLoop, List.flatMap_cons, income_append]
      split
      · apply Raising.Ensures.andThen (h.turn next)
        rintro middle ⟨hmiddle, htaken⟩
        apply (ih hmiddle).mono
        · rintro final ⟨hfinal, hle⟩
          use hfinal
          omega
        · intro _ _ _
          trivial
      · use h, Nat.le_add_right _ _

theorem Sound.enters (h : state.Sound) {deadline : Monotonic} {first : GatherTurn}
    (rest : List GatherTurn) (henters : first.now < deadline) :
  Raising.Ensures (RedriveState.gatherLoop services decode config deadline (first :: rest) state)
    (fun state' => state'.Sound ∧ state'.budget config + state.inbox.pendingCount
      ≤ state.budget config + income config ((first :: rest).flatMap GatherTurn.arrived))
    (fun _ _ => True)
  := by
  rw [RedriveState.gatherLoop, List.flatMap_cons, income_append]
  dsimp only
  rw [if_pos henters]
  apply Raising.Ensures.andThen (h.turn first)
  rintro middle ⟨hmiddle, htaken⟩
  apply (hmiddle.gatherLoop deadline rest).mono
  · rintro final ⟨hfinal, hle⟩
    use hfinal
    omega
  · intro _ _ _
    trivial

/-- A budget is granted without a change to the inbox; a fresh one is the configured one. -/
theorem remainingSessionBudget_eq_ok {wallClock : Timestamp} {granted : Monotonic}
    {state' : RedriveState}
    (h : state.remainingSessionBudget config wallClock = (.ok granted, state')) :
  (∃ store, state' = { state with store := store } ∧ store.entries = state.store.entries
      ∧ store.revision = state.store.revision
      ∧ (state.store.maxEpoch ≤ config.epoch → store.maxEpoch ≤ config.epoch))
    ∧ (state.freshDeadline = true → granted = config.sessionDeadline)
  := by
  rw [remainingSessionBudget] at h
  split at h
  · cases h
  · rename_i hgranted
    cases h
    obtain ⟨hentries, hrevision, -, hepoch, hfresh⟩ :=
      SessionState.remainingSessionBudget_eq_ok hgranted
    refine ⟨⟨_, rfl, hentries, hrevision, hepoch⟩, hfresh⟩

theorem Sound.gather (h : state.Sound) (pass : RedrivePass) :
  Raising.Ensures (RedriveState.gather services decode config pass state)
    (fun state' => state'.Sound
      ∧ state'.budget config ≤ state.budget config
        + income config ((pass.first :: pass.rest).flatMap GatherTurn.arrived)
      ∧ (state.freshDeadline = true → pass.latency < config.sessionDeadline →
        state'.budget config + state.inbox.pendingCount ≤ state.budget config
          + income config ((pass.first :: pass.rest).flatMap GatherTurn.arrived)))
    (fun _ _ => True)
  := by
  rw [RedriveState.gather]
  split
  · trivial
  · rename_i granted begun hgranted
    obtain ⟨⟨store, rfl, hentries, hrevision, -⟩, hfresh⟩ := remainingSessionBudget_eq_ok hgranted
    have hsound : Sound { state with store := store } := by
      constructor
      · apply h.agrees.congr hentries hrevision
      · apply h.nodup
      · apply h.below
    have hrest : ∀ {looped : RedriveState} {taken : ℕ}, looped.Sound ∧ looped.budget config + taken
        ≤ state.budget config
          + income config ((pass.first :: pass.rest).flatMap GatherTurn.arrived) →
        Raising.Ensures (Raising.each (mergeBatch services config) pass.remaining looped)
          (fun state' => state'.Sound ∧ state'.budget config + taken ≤ state.budget config
            + income config ((pass.first :: pass.rest).flatMap GatherTurn.arrived))
          (fun _ _ => True) := by
      rintro looped taken ⟨hlooped, htaken⟩
      apply (hlooped.mergeBatches pass.remaining).mono
      · rintro merged ⟨hmerged, hinbox⟩
        use hmerged
        rw [budget, hinbox]
        apply htaken
      · intro _ _ _
        trivial
    by_cases henters : state.freshDeadline = true ∧ pass.latency < config.sessionDeadline
    · have hlt : pass.first.now < pass.started + granted := by
        rw [hfresh henters.1]
        apply Int.lt_add_of_sub_left_lt henters.2
      apply Raising.Ensures.mono (Raising.Ensures.andThen (hsound.enters pass.rest hlt)
        (fun looped hlooped => hrest hlooped))
      · rintro state' ⟨hstate', htaken⟩
        use hstate', Nat.le_trans (Nat.le_add_right _ _) htaken
        intro _ _
        apply htaken
      · intro _ _ _
        trivial
    · apply Raising.Ensures.mono (Raising.Ensures.andThen
        (hsound.gatherLoop (pass.started + granted) (pass.first :: pass.rest))
        (fun looped hlooped => @hrest looped 0 hlooped))
      · rintro state' ⟨hstate', htaken⟩
        use hstate', htaken
        intro hfresh hlatency
        apply absurd ⟨hfresh, hlatency⟩ henters
      · intro _ _ _
        trivial

theorem frames_contribute (operatorId : OperatorId) :
  Raising.Frames (contribute services config operatorId) toDrainState
  := by
  intro state
  rw [contribute]
  split
  · rfl
  · rfl

/-- A pass that goes around again leaves entries pending and a fresh deadline. What it takes from
the budget is more than it adds, if it enters its gather loop while entries are pending. -/
structure Redriven (config : RedriveConfig) (pass : RedrivePass) (state state' : RedriveState) :
    Prop where
  sound : state'.Sound
  fresh : state'.freshDeadline = true
  pending : 0 < state'.inbox.pendingCount
  budget_le : state'.budget config ≤ state.budget config + income config pass.arrivals
  budget_lt : state.freshDeadline = true → 0 < state.inbox.pendingCount →
    pass.latency < config.sessionDeadline →
      state'.budget config < state.budget config + income config pass.arrivals

theorem Sound.redriven (h : state.Sound) {pass : RedrivePass} {state' : RedriveState}
    (hstep : step services decode config state pass = some state') :
  Redriven config pass state state'
  := by
  have hgather := @Sound.gather services decode config state h pass
  rw [step, iterate] at hstep
  split at hstep
  · cases hstep
  · rename_i gathered hgathered
    rw [hgathered] at hgather
    obtain ⟨hsound, hle, hlt⟩ := hgather
    split at hstep
    · cases hstep
    · split at hstep
      · cases hstep
      · rename_i contributed hcontributed
        have hframe : contributed.toDrainState = gathered.toDrainState := by
          have hframes := @Raising.Frames.each _ _ _ _ toDrainState (contribute services config)
            frames_contribute pass.contributed gathered
          rw [hcontributed] at hframes
          apply hframes
        have hcontributed : contributed.Sound := by
          constructor
          · rw [hframe]
            apply hsound.agrees
          · rw [hframe]
            apply hsound.nodup
          · rw [hframe]
            apply hsound.below
        obtain ⟨harrived, hbudget, -⟩ := @Sound.arrive config contributed hcontributed
          pass.arrivedLate
        have hsame : contributed.budget config = gathered.budget config := by
          rw [budget, hframe]
          rfl
        have hincome := income_append config
          ((pass.first :: pass.rest).flatMap GatherTurn.arrived) pass.arrivedLate
        rw [← RedrivePass.arrivals] at hincome
        split at hstep
        · cases hstep
        · dsimp only at hstep
          split at hstep
          · rename_i hpending
            cases hstep
            have hafter : ((contributed.arrive pass.arrivedLate).budget config)
                = gathered.budget config + income config pass.arrivedLate := by
              rw [hbudget, hsame]
            constructor
            · use harrived.agrees, harrived.nodup, harrived.below
            · rfl
            · apply hpending
            · apply Nat.le_trans (Nat.le_of_eq hafter)
              omega
            · intro hfresh hwaiting hlatency
              apply Nat.lt_of_le_of_lt (Nat.le_of_eq hafter)
              have htaken := hlt hfresh hlatency
              omega
          · cases hstep

end RedriveState

/-! ### Passes that nothing disturbs -/

/-- A drain whose calls raise by nothing. -/
def undisturbedAttempts : DrainAttempts where
  batch := ⟨0, .none⟩
  single := fun _ => ⟨0, .none⟩
  ackFenced := fun _ => none
  quarantine := fun _ => ⟨0, none, none⟩

/-- A pass in which nothing happens but that entries are appended late. -/
def latePass (started latency : Monotonic) (arrivedLate : List String) : RedrivePass where
  started := started
  wallClock := 0
  first := ⟨started + latency, [], undisturbedAttempts, []⟩
  rest := []
  remaining := []
  parks := false
  contributed := []
  arrivedLate := arrivedLate
  escapes := none

theorem unfenced_undisturbedAttempts (config : RedriveConfig) :
  (undisturbedAttempts.call config).Unfenced
  := by
  have hnone : MergeFaults.none.Unfenced config.epoch := by
    constructor
    · rintro _ ⟨⟩
    · rintro _ _ ⟨⟩
    · rintro _ _ ⟨⟩
  constructor
  · apply hnone
  · intro _
    apply hnone
  · intro _
    rfl
  · intro _
    rfl
  · intro _
    rfl

namespace RedriveState

/-- Nothing fences the state off, and what is pending is one payload, time and again. -/
structure Undisturbed (config : RedriveConfig) (payload : String) (state : RedriveState) :
    Prop where
  sound : state.Sound
  current : state.toDrainState.Current config.epoch
  payloads : ∀ message ∈ state.inbox.messages, message.payload = payload

variable {services : DrainServices} {decode : Decoder} {config : RedriveConfig} {payload : String}
  {state : RedriveState}

theorem Undisturbed.exists_budget (h : state.Undisturbed config payload) (wallClock : Timestamp) :
  ∃ granted state', state.remainingSessionBudget config wallClock = (.ok granted, state')
    ∧ state'.Undisturbed config payload ∧ state'.inbox = state.inbox
    ∧ (state.freshDeadline = true → granted = config.sessionDeadline)
  := by
  obtain ⟨granted, state', hgranted⟩ : ∃ granted state',
      state.remainingSessionBudget config wallClock = (.ok granted, state') := by
    obtain ⟨granted, store, hgranted⟩ := SessionState.remainingSessionBudget_of_le
      h.current.merge.store config.sessionDeadline state.freshDeadline wallClock
    rw [remainingSessionBudget, hgranted]
    refine ⟨_, _, rfl⟩
  obtain ⟨⟨store, rfl, hentries, hrevision, hepoch⟩, hfresh⟩ := remainingSessionBudget_eq_ok hgranted
  refine ⟨granted, _, hgranted, ⟨?sound, ?current, h.payloads⟩, rfl, hfresh⟩
  case sound =>
    constructor
    · apply h.sound.agrees.congr hentries hrevision
    · apply h.sound.nodup
    · apply h.sound.below
  case current =>
    have hmerge := h.current.merge
    use ⟨hepoch hmerge.store, hmerge.audit, hmerge.archive⟩, h.current.inbox

theorem Undisturbed.exists_drain (h : state.Undisturbed config payload)
    (haccepted : ∀ error, decode payload ≠ .rejected error) :
  ∃ state', RedriveState.drain services decode config undisturbedAttempts state = (.ok (), state')
    ∧ state'.Undisturbed config payload
  := by
  have hunfenced := unfenced_undisturbedAttempts config
  have hmessages : ∀ message ∈ state.inbox.messages,
      InboxState.isRejected decode message = false := by
    intro message hmem
    rw [InboxState.isRejected, h.payloads message hmem]
    split
    · rename_i error hrejected
      apply absurd hrejected (haccepted error)
    · rfl
  obtain ⟨drained, hdrained⟩ := @DrainState.exists_drainInbox_eq_ok services decode
    (undisturbedAttempts.call config) state.toDrainState h.sound.agrees h.sound.nodup hunfenced
    h.current hmessages
  have hdrain : RedriveState.drain services decode config undisturbedAttempts state
      = (.ok (), { state with toDrainState := drained }) := by
    rw [RedriveState.drain, hdrained]
  have hsound := @Sound.drain services decode config state h.sound undisturbedAttempts
  have hkept := @DrainState.ensures_drainInbox services decode (undisturbedAttempts.call config)
    state.toDrainState h.sound.agrees h.sound.nodup
  rw [hdrain] at hsound
  rw [hdrained] at hkept
  refine ⟨_, hdrain, hsound.1, ?current, ?payloads⟩
  case current => apply hkept.2.2 hunfenced h.current
  case payloads =>
    intro message hmem
    obtain ⟨before, hbefore, hsame⟩ := hkept.2.1.payload hmem
    rw [hsame]
    apply h.payloads before hbefore

/-- The gather of such a pass returns; it changes nothing unless it comes to its loop in time. -/
theorem Undisturbed.exists_gather (h : state.Undisturbed config payload)
    (haccepted : ∀ error, decode payload ≠ .rejected error) (started latency : Monotonic)
    (arrivedLate : List String) :
  ∃ state', RedriveState.gather services decode config (latePass started latency arrivedLate) state
      = (.ok (), state')
    ∧ state'.Undisturbed config payload
    ∧ (state.freshDeadline = true → config.sessionDeadline ≤ latency → state'.inbox = state.inbox)
  := by
  obtain ⟨granted, begun, hgranted, hbegun, hinbox, hfresh⟩ := h.exists_budget 0
  have hgather : ∀ {left : RedriveState}, RedriveState.gatherLoop services decode config
      (started + granted) [⟨started + latency, [], undisturbedAttempts, []⟩] begun
        = (.ok (), left) →
      RedriveState.gather services decode config (latePass started latency arrivedLate) state
        = (.ok (), left) := by
    intro left hloop
    rw [RedriveState.gather, latePass]
    dsimp only
    rw [hgranted]
    dsimp only
    rw [Raising.andThen, hloop]
    rfl
  by_cases hlt : started + latency < started + granted
  · obtain ⟨drained, hdrained, hundisturbed⟩ :=
      @Undisturbed.exists_drain services decode config payload begun hbegun haccepted
    refine ⟨drained, hgather ?loop, hundisturbed, ?late⟩
    case loop =>
      have hturn : RedriveState.turn services decode config
          ⟨started + latency, [], undisturbedAttempts, []⟩ begun = (.ok (), drained) := by
        rw [RedriveState.turn, Raising.andThen]
        dsimp only
        rw [show begun.arrive [] = begun from rfl, hdrained]
        rfl
      rw [RedriveState.gatherLoop]
      dsimp only
      rw [if_pos hlt, Raising.andThen, hturn]
      rfl
    case late =>
      intro hfreshDeadline hlate
      rw [hfresh hfreshDeadline] at hlt
      apply absurd (Int.lt_of_add_lt_add_left hlt) (Int.not_lt.mpr hlate)
  · refine ⟨begun, hgather ?loop, hbegun, ?late⟩
    case loop =>
      rw [RedriveState.gatherLoop]
      dsimp only
      rw [if_neg hlt]
    case late =>
      intro _ _
      apply hinbox

theorem Undisturbed.arrive (h : state.Undisturbed config payload) {payloads : List String}
    (hpayloads : ∀ arrived ∈ payloads, arrived = payload) :
  (state.arrive payloads).Undisturbed config payload
  := by
  induction payloads generalizing state with
  | nil => apply h
  | cons arrived payloads ih =>
      obtain ⟨harrived, hpayloads⟩ := List.forall_mem_cons.mp hpayloads
      have happended : Undisturbed config payload
          { state with inbox := (state.inbox.append arrived).2 } := by
        constructor
        · apply h.sound.append
        · use h.current.merge, h.current.inbox
        · intro message hmem
          rcases List.mem_append.mp hmem with hmem | hmem
          · apply h.payloads message hmem
          · rw [List.mem_singleton.mp hmem]
            apply harrived
      apply ih happended hpayloads

/-- Such a pass goes around again, if an entry is appended late, or one is pending and it comes to
its gather loop too late. -/
theorem Undisturbed.exists_step (h : state.Undisturbed config payload)
    (haccepted : ∀ error, decode payload ≠ .rejected error) {started latency : Monotonic}
    {arrivedLate : List String} (harrived : ∀ arrived ∈ arrivedLate, arrived = payload)
    (hpending : arrivedLate ≠ [] ∨ state.freshDeadline = true ∧ 0 < state.inbox.pendingCount
      ∧ config.sessionDeadline ≤ latency) :
  ∃ state', step services decode config state (latePass started latency arrivedLate) = some state'
    ∧ state'.Undisturbed config payload ∧ state'.freshDeadline = true
    ∧ 0 < state'.inbox.pendingCount
  := by
  obtain ⟨gathered, hgather, hgathered, hlate⟩ :=
    @Undisturbed.exists_gather services decode config payload state h haccepted started latency
      arrivedLate
  have harrive := hgathered.arrive harrived
  have hsound := harrive.sound
  obtain ⟨-, -, hcount⟩ := @Sound.arrive config gathered hgathered.sound arrivedLate
  have hwaiting : 0 < (gathered.arrive arrivedLate).inbox.pendingCount := by
    rw [hcount]
    rcases hpending with harrives | ⟨hfresh, hwaits, hlatency⟩
    · apply Nat.add_pos_right
      apply List.length_pos_of_ne_nil harrives
    · rw [hlate hfresh hlatency]
      apply Nat.add_pos_left hwaits
  refine ⟨prepareRedrive services config
      { gathered.arrive arrivedLate with archive := gathered.archive.flush.2 },
    ?step, ⟨⟨hsound.agrees, hsound.nodup, hsound.below⟩, ?current, harrive.payloads⟩, rfl, hwaiting⟩
  case step =>
    have hparks : ¬(latePass started latency arrivedLate).parks = true := nofun
    have hcontributes : Raising.each (contribute services config)
        (latePass started latency arrivedLate).contributed gathered = (.ok (), gathered) := rfl
    have hescapes : (latePass started latency arrivedLate).escapes = none := rfl
    have harrives : (latePass started latency arrivedLate).arrivedLate = arrivedLate := rfl
    rw [step, iterate, hgather]
    dsimp only
    rw [if_neg hparks, hcontributes]
    dsimp only
    rw [hescapes, harrives]
    dsimp only
    rw [if_pos hwaiting]
    rfl
  case current =>
    have hcurrent := harrive.current
    use ⟨hcurrent.merge.store, hcurrent.merge.audit, hcurrent.merge.archive⟩, hcurrent.inbox

end RedriveState

/-! ### The end of the loop -/

/-- A session of which nothing is kept, rehydrated. -/
def freshState (services : DrainServices) : RedriveState where
  mirror := (SessionStateMirror.initial services.sealing.sessionId).rehydrate .initial
  store := .initial
  audit := .initial
  archive := .initial
  coalescedAudits := .empty
  reobservedAudits := .empty
  inbox := .initial
  durable := .initial
  freshDeadline := false

theorem undisturbed_freshState (services : DrainServices) (config : RedriveConfig)
    (payload : String) :
  (freshState services).Undisturbed config payload
  := by
  have hzero := Nat.zero_le config.epoch
  refine ⟨⟨?agrees, List.nodup_nil, nofun⟩, ⟨⟨hzero, hzero, hzero⟩, hzero⟩, nofun⟩
  case agrees => apply agrees_rehydrate _ SessionState.initial_wellFormed

/-- The passes of such latencies, with an entry appended late in each of the first ones. -/
def latePasses (latency : ℕ → Monotonic) (payload : String) (k n : ℕ) : RedrivePass :=
  latePass ((List.range n).map latency).sum (latency n) (if n ≤ k then [payload] else [])

theorem runForward_latePasses {latency : ℕ → Monotonic} (hforward : ∀ n, 0 ≤ latency n)
    (payload : String) (k : ℕ) :
  RedrivePass.RunForward (latePasses latency payload k)
  := by
  intro n
  have hle := Int.le_add_of_nonneg_right (a := ((List.range n).map latency).sum) (hforward n)
  have hnext : (latePasses latency payload k (n + 1)).started
      = ((List.range n).map latency).sum + latency n := by
    rw [latePasses, latePass, List.range_succ, List.map_append, List.sum_append,
      List.map_singleton, List.sum_singleton]
  constructor
  · apply List.pairwise_pair.mpr hle
  · rw [hnext]
    intro time hmem
    rcases List.mem_pair.mp hmem with rfl | rfl
    · apply hle
    · apply Int.le_refl

theorem finitelyManyArrivals_latePasses (latency : ℕ → Monotonic) (payload : String) (k : ℕ) :
  RedrivePass.FinitelyManyArrivals (latePasses latency payload k)
  := by
  use k + 1
  intro n hn
  rw [latePasses, if_neg (Nat.not_le.mpr hn)]
  rfl

/-- Where no pass comes to its gather loop in time any more, the loop never ends: an entry is
appended in every pass up to then, and the last one stays pending. -/
theorem not_ends_latePasses {services : DrainServices} {decode : Decoder} {config : RedriveConfig}
    {latency : ℕ → Monotonic} {payload : String} {start : RedriveState} {k : ℕ}
    (hstart : start.Undisturbed config payload)
    (haccepted : ∀ error, decode payload ≠ .rejected error)
    (hlate : ∀ n ≥ k, config.sessionDeadline ≤ latency n) :
  ¬TransitionSystem.Ends (RedriveState.step services decode config) start
    (latePasses latency payload k)
  := by
  apply @TransitionSystem.not_ends_of_invariant _ _ _ _ _ (fun n state =>
    state.Undisturbed config payload
      ∧ (k < n → state.freshDeadline = true ∧ 0 < state.inbox.pendingCount))
  · use hstart
    rintro ⟨⟩
  · rintro n state ⟨hundisturbed, hagain⟩
    obtain ⟨state', hstep, hundisturbed', hredriven⟩ :=
      @RedriveState.Undisturbed.exists_step services decode config payload state hundisturbed
        haccepted ((List.range n).map latency).sum (latency n) (if n ≤ k then [payload] else [])
        (by
          intro arrived hmem
          split at hmem
          · apply List.mem_singleton.mp hmem
          · cases hmem)
        (by
          split
          · left
            apply List.cons_ne_nil
          · rename_i hn
            right
            obtain ⟨hfresh, hpending⟩ := hagain (Nat.not_le.mp hn)
            use hfresh, hpending, hlate n (Nat.le_of_lt (Nat.not_le.mp hn)))
    use state', hstep, hundisturbed'
    intro _
    apply hredriven

/-- The loop of `_run` goes around finitely often, in whatever order entries arrive, applies fail
and the gather is left, and from whatever state, as long as finitely many entries arrive: if and
only if passes keep coming that reach their gather loop within a fresh `session_deadline`. -/
theorem redrives_end_iff (services : DrainServices) (decode : Decoder) (config : RedriveConfig)
    (latency : ℕ → Monotonic) (hforward : ∀ n, 0 ≤ latency n)
    (haccepts : ∃ payload, ∀ error, decode payload ≠ .rejected error) :
  (∀ (start : RedriveState) (passes : ℕ → RedrivePass), start.Sound →
      RedrivePass.RunForward passes → RedrivePass.FinitelyManyArrivals passes →
      (∀ n, (passes n).latency = latency n) →
      TransitionSystem.Ends (RedriveState.step services decode config) start passes)
    ↔ ∀ k, ∃ n ≥ k, latency n < config.sessionDeadline
  := by
  constructor
  · intro hends
    by_contra hnever
    obtain ⟨k, hlate⟩ : ∃ k, ∀ n ≥ k, config.sessionDeadline ≤ latency n := by
      obtain ⟨k, hnone⟩ := not_forall.mp hnever
      use k
      intro n hn
      apply Int.not_lt.mp
      intro hlt
      apply hnone ⟨n, hn, hlt⟩
    obtain ⟨payload, haccepted⟩ := haccepts
    have hfresh := undisturbed_freshState services config payload
    apply not_ends_latePasses hfresh haccepted hlate
    apply hends _ _ hfresh.sound (runForward_latePasses hforward payload k)
      (finitelyManyArrivals_latePasses latency payload k)
    intro n
    apply add_sub_cancel_left
  · rintro hentered start passes hstart - ⟨k, hdry⟩ hlatency
    apply @TransitionSystem.ends_of_potential _ _ _ _ _
      (fun n state => state.Sound
        ∧ (0 < n → state.freshDeadline = true ∧ 0 < state.inbox.pendingCount))
      (RedriveState.budget config) (fun n => RedriveState.income config (passes n).arrivals)
      (fun n => 0 < n ∧ latency n < config.sessionDeadline)
    · use hstart
      rintro ⟨⟩
    · rintro n state state' ⟨hsound, hagain⟩ hstep
      have hredriven := hsound.redriven hstep
      refine ⟨⟨hredriven.sound, fun _ => ⟨hredriven.fresh, hredriven.pending⟩⟩,
        hredriven.budget_le, ?_⟩
      rintro ⟨hpos, hlt⟩
      obtain ⟨hfresh, hpending⟩ := hagain hpos
      rw [← hlatency] at hlt
      apply hredriven.budget_lt hfresh hpending hlt
    · use k
      intro n hn
      rw [hdry n hn]
      apply Nat.zero_mul
    · intro m
      obtain ⟨n, hn, hlt⟩ := hentered (m + 1)
      use n, Nat.le_of_succ_le hn, Nat.lt_of_lt_of_le (Nat.succ_pos m) hn

/-- An orchestrator whose gathers are to last so long. -/
def faxConfig (sessionDeadline : Monotonic) : RedriveConfig := ⟨1, [], sessionDeadline, 3⟩

theorem accepted_page (error : OrchestrationError) :
  faxDecoder "page" ≠ .rejected error
  := by
  rw [faxDecoder, if_neg (by decide)]
  rintro ⟨⟩

/-- A session deadline of zero, and an entry that is appended as the first pass aggregates: the
loop never ends. -/
theorem late_fax_spins :
  (freshState faxServices).Sound
    ∧ RedrivePass.RunForward (latePasses (fun _ => 0) "page" 0)
    ∧ RedrivePass.FinitelyManyArrivals (latePasses (fun _ => 0) "page" 0)
    ∧ ¬TransitionSystem.Ends (RedriveState.step faxServices faxDecoder (faxConfig 0))
      (freshState faxServices) (latePasses (fun _ => 0) "page" 0)
  := by
  have hstart := undisturbed_freshState faxServices (faxConfig 0) "page"
  use hstart.sound, runForward_latePasses (fun _ => Int.le_refl 0) "page" 0,
    finitelyManyArrivals_latePasses _ "page" 0
  apply not_ends_latePasses hstart accepted_page
  intro _ _
  apply Int.le_refl

/-- With any longer one it ends. -/
theorem redrives_end_iff_fax :
  TransitionSystem.Ends (RedriveState.step faxServices faxDecoder (faxConfig 600))
    (freshState faxServices) (latePasses (fun _ => 0) "page" 0)
  := by
  have hstart := undisturbed_freshState faxServices (faxConfig 600) "page"
  have hend := redrives_end_iff faxServices faxDecoder (faxConfig 600) (fun _ => 0)
    (fun _ => Int.le_refl 0) ⟨"page", accepted_page⟩
  apply hend.mpr _ _ _ hstart.sound (runForward_latePasses (fun _ => Int.le_refl 0) "page" 0)
    (finitelyManyArrivals_latePasses _ "page" 0)
  · intro n
    apply add_sub_cancel_left
  · intro k
    use k, Nat.le_refl k
    decide

end Orcastork
