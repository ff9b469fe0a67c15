import Orcastork.Lite.Events

/-!
# What the events of a session say

Whoever folds the events of a session has a replica of it: its DataPoints in order, its revision,
the runs of every operator, the report of failures and the attempts under way (`Replica.observe`).
A run that ended is one `operator_run_completed`, unless the run was cancelled, or the event takes a
retry back: a failure with the attempt of the run that was to be retried. The replica is that of the
session at every point (`replay_eventsOf`).
-/

namespace Orcastork

namespace Lite

/-- What a consumer of the events keeps. -/
structure Replica (V : Type) where
  /-- The DataPoints by the names of their classes, in the order they were added, with who
  retrieved them first. -/
  dataPoints : List (String × V × OperatorId)
  revision : Revision
  runs : Dict OperatorId ℕ
  failures : Dict OperatorId String
  /-- The last attempt of each operator that is to be retried. -/
  failedAttempts : Dict OperatorId ℕ

namespace Replica

variable {V : Type}

/-- Before the first event. -/
def initial : Replica V := ⟨[], 0, .empty, .empty, .empty⟩

/-- One more run of an operator. -/
def countRun (replica : Replica V) (operatorId : OperatorId) : Dict OperatorId ℕ :=
  replica.runs.set operatorId ((replica.runs.get? operatorId).getD 0 + 1)

/-- What an event changes. -/
def observe (replica : Replica V) : SessionEvent V → Replica V
  | .dataPointMerged dataPointType value retrievedBy merge revision =>
    { replica with
      dataPoints :=
        match merge with
        | .added => replica.dataPoints ++ [(dataPointType, value, retrievedBy)]
        | .updated => replica.dataPoints
      revision := revision }
  | .operatorRunCompleted operatorId outcome attempt error =>
    match outcome with
    | .succeeded =>
      { replica with
        runs := replica.countRun operatorId
        failedAttempts := replica.failedAttempts.erase operatorId }
    | .retrying =>
      { replica with
        runs := replica.countRun operatorId
        failedAttempts := replica.failedAttempts.set operatorId attempt }
    | .failed =>
      { replica with
        runs :=
          -- the retry of that attempt is taken back
          if replica.failedAttempts.get? operatorId = some attempt then replica.runs
          else replica.countRun operatorId
        failures := replica.failures.set operatorId (error.getD "")
        failedAttempts := replica.failedAttempts.erase operatorId }
    | .cancelled => { replica with failures := replica.failures.set operatorId (error.getD "") }
  | .capabilityActivated _ _ => replica
  | .sessionCompleted _ _ _ => replica

/-- What some events change. -/
def replay (replica : Replica V) (events : List (SessionEvent V)) : Replica V :=
  events.foldl observe replica

theorem replay_append (replica : Replica V) (first second : List (SessionEvent V)) :
  replica.replay (first ++ second) = (replica.replay first).replay second
  := List.foldl_append

theorem replay_cons (replica : Replica V) (event : SessionEvent V)
    (events : List (SessionEvent V)) :
  replica.replay (event :: events) = (replica.observe event).replay events
  := rfl

end Replica

/-! ### Merges -/

section

variable {P V : Type}

/-- What an event tells of a DataPoint. -/
def DataPoint.sighting (typeName : P → String) (dataPoint : DataPoint P V) :
    String × V × OperatorId :=
  (typeName dataPoint.type, dataPoint.value, dataPoint.retrievedBy)

/-- What the events tell of the DataPoints of a session. -/
def SessionState.sightings (typeName : P → String) (state : SessionState P V) :
    List (String × V × OperatorId) :=
  state.view.map (DataPoint.sighting typeName)

namespace SessionState

variable [DecidableEq P] [DecidableEq V] {typeName : P → String}

/-- A merge that notes what it adds and updates, beside one that does not: what is added comes after
what was there. -/
structure Noted (typeName : P → String) (before : List (String × V × OperatorId))
    (noted : Dict (P × V) (Entry P V) × List (DataPoint P V) × List (DataPoint P V))
    (merged : Dict (P × V) (Entry P V) × Bool) : Prop where
  entries : noted.1 = merged.1
  changed : merged.2 = true ↔ noted.2.1 ++ noted.2.2 ≠ []
  sightings : noted.1.values.map (fun entry => entry.dataPoint.sighting typeName)
    = before ++ noted.2.1.map (DataPoint.sighting typeName)

/-- An entry put in the place of one that looks the same is not seen. -/
theorem map_values_set {α : Type} {f : Entry P V → α} {entries : Dict (P × V) (Entry P V)}
    {key : P × V} {entry entry' : Entry P V} (hget : entries.get? key = some entry)
    (hsame : f entry' = f entry) :
  (entries.set key entry').values.map f = entries.values.map f
  := by
  rw [← Dict.values_map, Dict.map_set, hsame, Dict.set_eq_self, Dict.values_map]
  rw [Dict.get?_map, hget]
  rfl

theorem Noted.step {before : List (String × V × OperatorId)}
    {noted : Dict (P × V) (Entry P V) × List (DataPoint P V) × List (DataPoint P V)}
    {merged : Dict (P × V) (Entry P V) × Bool} (h : Noted typeName before noted merged)
    (nextRevision : Revision) (dataPoint : DataPoint P V) :
  Noted typeName before (noteOne nextRevision noted dataPoint)
    (mergeOne nextRevision merged dataPoint)
  := by
  obtain ⟨entries, added, updated⟩ := noted
  obtain ⟨entries', changed⟩ := merged
  obtain rfl := h.entries
  rw [noteOne, mergeOne]
  dsimp only
  cases hget : entries.get? dataPoint.identityKey with
  | none =>
      constructor
      · rfl
      · simp
      · rw [Dict.values_set_of_not_mem (Dict.get?_eq_none_iff.mp hget), List.map_append,
          h.sightings, List.map_append, List.append_assoc]
        rfl
  | some existing =>
      dsimp only
      split
      · constructor
        · rfl
        · simp
        · dsimp only
          rw [map_values_set hget]
          · apply h.sightings
          · rfl
      · apply h

theorem Noted.foldl {before : List (String × V × OperatorId)}
    {noted : Dict (P × V) (Entry P V) × List (DataPoint P V) × List (DataPoint P V)}
    {merged : Dict (P × V) (Entry P V) × Bool} (h : Noted typeName before noted merged)
    (nextRevision : Revision) (dataPoints : List (DataPoint P V)) :
  Noted typeName before (dataPoints.foldl (noteOne nextRevision) noted)
    (dataPoints.foldl (mergeOne nextRevision) merged)
  := by
  induction dataPoints generalizing noted merged with
  | nil => apply h
  | cons dataPoint dataPoints ih => apply ih (h.step nextRevision dataPoint)

/-- What a merge adds comes after what was there, and the revision advances exactly if something
was added or updated. -/
theorem merge_eq (typeName : P → String) (state : SessionState P V)
    (dataPoints : List (DataPoint P V)) :
  (state.merge dataPoints).sightings typeName
      = state.sightings typeName
        ++ (state.mergeOutcome dataPoints).1.map (DataPoint.sighting typeName)
    ∧ ((state.mergeOutcome dataPoints).1 ++ (state.mergeOutcome dataPoints).2 = [] →
      (state.merge dataPoints).revision = state.revision)
    ∧ (state.merge dataPoints).watermarks = state.watermarks
  := by
  have hstart : Noted typeName (state.sightings typeName) (state.entries, [], [])
      (state.entries, false) := by
    constructor
    · rfl
    · simp
    · dsimp only
      rw [List.map_nil, List.append_nil, sightings, view, List.map_map]
      rfl
  have h := hstart.foldl (state.revision + 1) dataPoints
  refine ⟨?_, ?_, rfl⟩
  · rw [mergeOutcome, ← h.sightings, sightings, view, List.map_map, h.entries]
    rfl
  · intro hnone
    rw [merge]
    apply if_neg
    rw [h.changed]
    apply not_not.mpr hnone

end SessionState

end

/-! ### The replica of a session -/

/-- What a consumer has that got every event of a session. -/
def Gather.replica {P V : Type} (typeName : P → String) (gather : Gather P V) : Replica V where
  dataPoints := gather.state.sightings typeName
  revision := gather.state.revision
  runs := gather.runs
  failures := gather.failures
  failedAttempts := gather.failedAttempts

namespace Gather

section

variable {P V C O : Type} {services : Services P C O} (typeName : P → String)
  {gather gather' : Gather P V} {completions : List Completed}

/-- The merges of one revision, one after another. -/
theorem replay_merged (replica : Replica V) (dataPoints : List (DataPoint P V)) (merge : MergeKind)
    (revision : Revision) :
  replica.replay (dataPoints.map (fun dataPoint =>
      .dataPointMerged (typeName dataPoint.type) dataPoint.value dataPoint.retrievedBy merge
        revision))
    = { replica with
        dataPoints :=
          match merge with
          | .added => replica.dataPoints ++ dataPoints.map (DataPoint.sighting typeName)
          | .updated => replica.dataPoints
        revision := if dataPoints = [] then replica.revision else revision }
  := by
  induction dataPoints generalizing replica with
  | nil =>
      cases merge with
      | added =>
          rw [List.map_nil, List.map_nil]
          dsimp only
          rw [List.append_nil]
          rfl
      | updated => rfl
  | cons dataPoint dataPoints ih =>
      rw [List.map_cons, Replica.replay_cons, ih, if_neg (List.cons_ne_nil _ _)]
      cases merge with
      | added =>
          rw [Replica.observe, List.map_cons]
          simp only [List.append_assoc, List.singleton_append, ite_self, DataPoint.sighting]
      | updated =>
          rw [Replica.observe]
          simp only [ite_self]

/-- The events of a merge say what it did. -/
theorem replay_mergeEvents [DecidableEq P] [DecidableEq V]
    (gather : Gather P V) (dataPoints : List (DataPoint P V)) :
  (gather.replica typeName).replay (gather.state.mergeEvents typeName dataPoints)
    = replica typeName { gather with state := gather.state.merge dataPoints }
  := by
  obtain ⟨hsightings, hrevision, -⟩ := gather.state.merge_eq typeName dataPoints
  rw [SessionState.mergeEvents]
  dsimp only
  rw [Replica.replay_append, replay_merged typeName, replay_merged typeName, replica, replica, hsightings]
  dsimp only
  congr 1
  by_cases hadded : (gather.state.mergeOutcome dataPoints).1 = []
  · rw [if_pos hadded]
    split
    · rename_i hupdated
      rw [hrevision]
      rw [hadded, hupdated]
      rfl
    · rfl
  · rw [if_neg hadded, ite_self]

/-! ### Runs -/

/-- What the numbers of the attempts have to agree with: an armed retry is of the last attempt that
failed, and a run that was cut has its error. -/
structure Numbered (gather : Gather P V) (completions : List Completed) : Prop where
  armed : ∀ {operatorId armed}, gather.armedRetries.get? operatorId = some armed →
    gather.failedAttempts.get? operatorId = some armed.attempts
  cut : ∀ signal ∈ completions, signal.cutByDeadline = true → signal.error.isSome

/-- The event of a completion says what was recorded of it. -/
theorem observe_completionEvent {signal : Completed}
    (h : Numbered gather (signal :: completions))
    (hunarmed : gather.armedRetries.get? signal.operatorId = none) (clock : OperatorId → Monotonic)
    (hrecord : recordCompletion services clock gather signal = some gather') :
  (gather.replica typeName).observe (gather.completionEvent services signal)
      = gather'.replica typeName
    ∧ Numbered gather' completions
  := by
  have hcut : ∀ other ∈ completions, other.cutByDeadline = true → other.error.isSome := by
    intro other hmem
    apply h.cut other (List.mem_cons_of_mem _ hmem)
  have hother : ∀ {operatorId armed}, gather.armedRetries.get? operatorId = some armed →
      signal.operatorId ≠ operatorId := by
    rintro operatorId armed harmed rfl
    cases hunarmed.symm.trans harmed
  -- the run that ends now is not the one that was to be retried
  have hagain : gather.failedAttempts.get? signal.operatorId
      ≠ some (gather.attempt signal.operatorId) := by
    intro hsame
    rw [attempt, hsame, Option.getD_some, Option.some.injEq] at hsame
    omega
  rw [recordCompletion] at hrecord
  rw [completionEvent]
  split at hrecord
  · cases hrecord
  · rename_i record hrunning
    dsimp only at hrecord ⊢
    split at hrecord
    · rename_i hwas
      obtain rfl := Option.some.inj hrecord
      obtain ⟨error, herror⟩ := Option.isSome_iff_exists.mp (h.cut signal List.mem_cons_self hwas)
      rw [if_pos hwas, herror]
      use rfl
      constructor
      · apply @h.armed
      · apply hcut
    · rename_i hwas
      rw [if_neg hwas]
      cases herror : signal.error with
      | none =>
          rw [herror] at hrecord
          obtain rfl := Option.some.inj hrecord
          use rfl
          constructor
          · intro operatorId armed harmed
            dsimp only
            rw [countRun, Dict.get?_erase, if_neg (hother harmed)]
            apply h.armed harmed
          · apply hcut
      | some error =>
          rw [herror] at hrecord
          dsimp only at hrecord ⊢
          split at hrecord
          · rename_i hleft
            obtain rfl := Option.some.inj hrecord
            rw [if_pos (by apply hleft)]
            use rfl
            constructor
            · intro operatorId armed harmed
              dsimp only at harmed ⊢
              rw [Dict.get?_set] at harmed ⊢
              split at harmed
              · rename_i hsame
                obtain rfl := Option.some.inj harmed
                rw [if_pos hsame]
              · rename_i hne
                rw [if_neg hne]
                apply h.armed harmed
            · apply hcut
          · rename_i hleft
            obtain rfl := Option.some.inj hrecord
            rw [if_neg (by apply hleft)]
            constructor
            · rw [Replica.observe, replica, replica]
              dsimp only
              rw [if_neg hagain]
              rfl
            · constructor
              · intro operatorId armed harmed
                rw [recordTerminalFailure]
                dsimp only
                rw [Dict.get?_erase, if_neg (hother harmed)]
                apply h.armed harmed
              · apply hcut

/-- The events of some completions say what was recorded of them. -/
theorem replay_completionEvents (hkept : Kept services gather completions)
    (h : Numbered gather completions) (clock : OperatorId → Monotonic)
    (hrecord : completions.foldlM (recordCompletion services clock) gather = some gather') :
  (gather.replica typeName).replay (completionEvents services clock completions gather)
      = gather'.replica typeName
    ∧ Numbered gather' []
  := by
  induction completions generalizing gather with
  | nil =>
      obtain rfl := Option.some.inj hrecord
      use rfl
  | cons signal completions ih =>
      obtain ⟨between, hfirst, hbetween, -⟩ := hkept.record clock
      obtain ⟨-, -, hunarmed, -⟩ := hkept.record_inv
      obtain ⟨hobserve, hnumbered⟩ :=
        observe_completionEvent typeName h hunarmed clock hfirst
      rw [List.foldlM_cons, hfirst] at hrecord
      obtain ⟨hreplay, hnumbered'⟩ := ih hbetween hnumbered hrecord
      rw [completionEvents, hfirst, Replica.replay_cons, hobserve]
      exact ⟨hreplay, hnumbered'⟩

/-- What is published of all that is queued says what became of it. -/
theorem replay_consumeEvents [DecidableEq P] [DecidableEq V]
    (hkept : Kept services gather gather.completions) (h : Numbered gather gather.completions)
    {clock : OperatorId → Monotonic} (hconsume : gather.consume services clock = some gather') :
  (gather.replica typeName).replay (gather.consumeEvents services typeName clock)
      = gather'.replica typeName
    ∧ Numbered gather' gather'.completions
  := by
  obtain ⟨consumed, hconsumed, -, hqueue, -⟩ := hkept.consume clock
  obtain rfl := Option.some.inj (hconsumed.symm.trans hconsume)
  have htaken : Kept services gather.takeSignals gather.completions := by
    apply hkept.congr
    all_goals rfl
  have hnumbered : Numbered gather.takeSignals gather.completions := ⟨@h.armed, h.cut⟩
  obtain ⟨hreplay, hnumbered'⟩ :=
    replay_completionEvents typeName htaken hnumbered clock hconsume
  have hempty : consumed.completions = [] := by
    rw [completions, hqueue]
    rfl
  rw [consumeEvents, Replica.replay_append, replay_mergeEvents, hempty]
  exact ⟨hreplay, hnumbered'⟩

/-! ### Passes -/

section

variable [DecidableEq P]

/-- The turn of an operator publishes the failure of a retry that is lost, and changes nothing else
that is published. -/
theorem replay_visitEvents {plan plan' : Plan P V O} {observed : Observed P C}
    {clock : OperatorId → Monotonic} {operator : O} (h : Numbered plan.gather completions)
    (hvisit : visit services observed clock plan operator = some plan') :
  (plan.gather.replica typeName).replay (visitEvents services observed plan operator)
      = plan'.gather.replica typeName
    ∧ Numbered plan'.gather completions
  := by
  rw [visit] at hvisit
  rw [visitEvents]
  dsimp only at hvisit ⊢
  split at hvisit
  · rename_i hskip
    obtain rfl := Option.some.inj hvisit
    rw [if_pos hskip]
    use rfl
  · rename_i hidle
    rw [if_neg hidle]
    split at hvisit
    · rename_i hwindow
      rw [hwindow, Bool.true_and]
      split at hvisit
      · rename_i hunready
        rw [if_pos hunready]
        cases harmed : plan.gather.armedRetries.get? (services.operatorId operator) with
        | none =>
          rw [harmed] at hvisit
          cases hvisit
        | some armed =>
          rw [harmed] at hvisit
          obtain rfl := Option.some.inj hvisit
          constructor
          · rw [Replica.replay_cons, Replica.observe, replica, replica]
            dsimp only
            rw [if_pos (h.armed harmed)]
            rfl
          · constructor
            · intro operatorId other hother
              rw [recordTerminalFailure] at hother ⊢
              dsimp only at hother ⊢
              rw [Dict.get?_erase] at hother ⊢
              split at hother
              · cases hother
              · rename_i hne
                rw [if_neg hne]
                apply h.armed hother
            · apply h.cut
      · rename_i hready
        rw [if_neg hready]
        split at hvisit
        · obtain rfl := Option.some.inj hvisit
          use rfl
        · obtain rfl := Option.some.inj hvisit
          exact ⟨rfl, @h.armed, h.cut⟩
    · rename_i hwindow
      rw [Bool.not_eq_true] at hwindow
      rw [hwindow, Bool.false_and, if_neg Bool.false_ne_true]
      split at hvisit
      · obtain rfl := Option.some.inj hvisit
        use rfl
      · split at hvisit
        · obtain rfl := Option.some.inj hvisit
          use rfl
        · split at hvisit
          · obtain rfl := Option.some.inj hvisit
            use rfl
          · split at hvisit
            · obtain rfl := Option.some.inj hvisit
              use rfl
            · -- the window is armed or was, and is due or not
              split at hvisit
              all_goals
                split at hvisit
                all_goals
                  obtain rfl := Option.some.inj hvisit
                  exact ⟨rfl, @h.armed, h.cut⟩

/-- What planning publishes says what it changed. -/
theorem replay_planEvents {operators : List O} {plan plan' : Plan P V O} {observed : Observed P C}
    {clock : OperatorId → Monotonic} (h : Numbered plan.gather completions)
    (hvisits : operators.foldlM (visit services observed clock) plan = some plan') :
  (plan.gather.replica typeName).replay (planEvents services observed clock operators plan)
      = plan'.gather.replica typeName
    ∧ Numbered plan'.gather completions
  := by
  induction operators generalizing plan with
  | nil =>
      obtain rfl := Option.some.inj hvisits
      use rfl
  | cons operator operators ih =>
      rw [List.foldlM_cons, Option.bind_eq_bind, Option.bind_eq_some_iff] at hvisits
      obtain ⟨between, hvisit, hvisits⟩ := hvisits
      obtain ⟨hreplay, hbetween⟩ := replay_visitEvents typeName h hvisit
      rw [planEvents, hvisit, Replica.replay_append, hreplay]
      apply ih hbetween hvisits

omit [DecidableEq P] in
/-- A launch publishes nothing, and changes nothing that is published. -/
theorem replica_launches (observed : Observed P C) (runnables : List (Runnable P V O))
    (h : Numbered gather completions) :
  (runnables.foldl (launch services observed) gather).replica typeName = gather.replica typeName
    ∧ Numbered (runnables.foldl (launch services observed) gather) completions
  := by
  induction runnables generalizing gather with
  | nil => exact ⟨rfl, h⟩
  | cons runnable runnables ih =>
      have hlaunched : (launch services observed gather runnable).replica typeName
            = gather.replica typeName
          ∧ Numbered (launch services observed gather runnable) completions := by
        rw [launch]
        dsimp only
        split
        · use rfl
          constructor
          · intro operatorId armed harmed
            dsimp only at harmed
            rw [Dict.get?_erase] at harmed
            split at harmed
            · cases harmed
            · apply h.armed harmed
          · apply h.cut
        · use rfl
          exact ⟨@h.armed, h.cut⟩
      obtain ⟨hsame, hnumbered⟩ := ih hlaunched.2
      exact ⟨hsame.trans hlaunched.1, hnumbered⟩

end

/-- What is left running is reported as cancelled. -/
theorem replay_cancelEvents (gather : Gather P V) :
  (gather.replica typeName).replay gather.cancelEvents = gather.cancelRemaining.replica typeName
  := by
  have hfold : ∀ (operatorIds : List OperatorId) (replica : Replica V),
      replica.replay (operatorIds.map (fun operatorId =>
          .operatorRunCompleted operatorId .cancelled (gather.attempt operatorId)
            (some cancelledAtDeadline)))
        = { replica with
            failures := operatorIds.foldl (fun failures operatorId =>
              failures.set operatorId cancelledAtDeadline) replica.failures } := by
    intro operatorIds
    induction operatorIds with
    | nil =>
        intro replica
        rfl
    | cons operatorId operatorIds ih =>
        intro replica
        rw [List.map_cons, Replica.replay_cons, ih]
        rfl
  rw [cancelEvents, hfold]
  rfl

end

/-! ### Steps -/

section

variable {P V C O : Type} [DecidableEq P] [DecidableEq V] [DecidableEq C]
  {services : Services P C O} (typeName : P → String) {gather gather' : Gather P V}

omit [DecidableEq V] in
/-- What a pass publishes says what it changed. -/
theorem replay_pass {now : Monotonic} {available : Finset CapabilityId}
    {clock : OperatorId → Monotonic} {completions : List Completed}
    (h : Numbered gather completions)
    (hpass : gather.pass services now available clock = some gather') :
  (gather.replica typeName).replay
      (planEvents services (gather.observed services now available) clock services.operators
        ⟨gather, [], none⟩)
      = gather'.replica typeName
    ∧ Numbered gather' completions
  := by
  rw [pass] at hpass
  dsimp only at hpass
  split at hpass
  · cases hpass
  · rename_i plan hvisits
    obtain rfl := Option.some.inj hpass
    obtain ⟨hreplay, hplanned⟩ := @replay_planEvents P V C O services typeName completions _
      services.operators ⟨gather, [], none⟩ plan _ clock h hvisits
    obtain ⟨hsame, hlaunched⟩ := replica_launches typeName
      (gather.observed services now available) plan.runnable hplanned
    constructor
    · apply hreplay.trans hsame.symm
    · exact ⟨@hlaunched.armed, hlaunched.cut⟩

/-- What a step publishes says what it changed. -/
theorem replay_eventsOf {action : Action P V} (hsound : Sound services gather)
    (h : Numbered gather gather.completions) (hstep : gather.step services action = some gather') :
  (gather.replica typeName).replay (gather.eventsOf services typeName action)
      = gather'.replica typeName
    ∧ Numbered gather' gather'.completions
  := by
  cases action with
  | emit operatorId dataPoint =>
      rw [Gather.step, Option.ite_none_right_eq_some, Option.some.injEq] at hstep
      obtain ⟨-, rfl⟩ := hstep
      use rfl
      constructor
      · apply @h.armed
      · intro signal hmem
        rw [completions, List.filterMap_append] at hmem
        rcases List.mem_append.mp hmem with hmem | hmem
        · apply h.cut signal hmem
        · cases hmem
  | finish operatorId error =>
      rw [Gather.step] at hstep
      split at hstep
      · cases hstep
      · dsimp only at hstep
        rw [Option.ite_none_right_eq_some, Option.some.injEq] at hstep
        obtain ⟨-, rfl⟩ := hstep
        use rfl
        constructor
        · apply @h.armed
        · intro signal hmem hcut
          rw [completions, List.filterMap_append] at hmem
          rcases List.mem_append.mp hmem with hmem | hmem
          · apply h.cut signal hmem hcut
          · obtain rfl := List.mem_singleton.mp hmem
            rw [Bool.and_eq_true] at hcut
            cases error with
            | none => cases hcut.2
            | some error => rfl
  | cancelled operatorId =>
      rw [Gather.step] at hstep
      split at hstep
      · cases hstep
      · rw [Option.ite_none_right_eq_some, Option.some.injEq] at hstep
        obtain ⟨-, rfl⟩ := hstep
        exact ⟨rfl, @h.armed, h.cut⟩
  | pass now available clock =>
      rw [Gather.step, Option.ite_none_right_eq_some] at hstep
      obtain ⟨-, hstep⟩ := hstep
      rw [eventsOf]
      split at hstep
      · rename_i hover
        obtain rfl := Option.some.inj hstep
        rw [if_pos hover]
        exact ⟨rfl, @h.armed, h.cut⟩
      · rename_i hgoing
        rw [if_neg hgoing]
        obtain ⟨passed, hpass, -, hqueue, -⟩ := hsound.kept.pass now available clock
        obtain rfl := Option.some.inj (hpass.symm.trans hstep)
        obtain ⟨hreplay, hnumbered⟩ := replay_pass typeName h hstep
        use hreplay
        rw [completions, hqueue]
        apply hnumbered
  | signalled clock =>
      rw [Gather.step, Option.ite_none_right_eq_some, Option.map_eq_some_iff] at hstep
      obtain ⟨-, consumed, hconsume, rfl⟩ := hstep
      obtain ⟨hreplay, hnumbered⟩ :=
        replay_consumeEvents typeName hsound.kept h hconsume
      exact ⟨hreplay, @hnumbered.armed, hnumbered.cut⟩
  | due =>
      rw [Gather.step, Option.ite_none_right_eq_some, Option.some.injEq] at hstep
      obtain ⟨-, rfl⟩ := hstep
      exact ⟨rfl, @h.armed, h.cut⟩
  | drain clock =>
      rw [Gather.step, Option.ite_none_right_eq_some, Option.map_eq_some_iff] at hstep
      obtain ⟨-, consumed, hconsume, rfl⟩ := hstep
      obtain ⟨hreplay, hnumbered⟩ :=
        replay_consumeEvents typeName hsound.kept h hconsume
      exact ⟨hreplay, @hnumbered.armed, hnumbered.cut⟩
  | close clock =>
      rw [Gather.step, Option.ite_none_right_eq_some, Option.map_eq_some_iff] at hstep
      obtain ⟨-, consumed, hconsume, rfl⟩ := hstep
      obtain ⟨hreplay, hnumbered⟩ :=
        replay_consumeEvents typeName hsound.kept h hconsume
      rw [eventsOf, hconsume, Replica.replay_append, hreplay]
      exact ⟨replay_cancelEvents typeName consumed, @hnumbered.armed, hnumbered.cut⟩

end

end Gather

end Lite

end Orcastork
