import Orcastork.Orchestrator.GatherSoundness

/-!
# Every signal is accounted for

What an operator puts on the queue is merged or recorded once, in the order it came: of an
emission, the DataPoint is observed in the store; of a completion, the run is counted, the breaker
told, a row appended, and the watermark moved or a retry armed. The counts go on over a re-drive,
before which the aggregators add rows and runs of their own.

A completion is dropped where a final drain finds it, which only a drain at the deadline does
(`DropsNothing`). Without faults, and where that does not happen, the accounts close whenever a
gather ends (`completions_accounted`).
-/

namespace Orcastork

/-! ### Accounts -/

/-- What the row of a recorded run tells. -/
def RecordedRun.info (run : RecordedRun) : OperatorAuditInfo where
  operatorId := run.completion.operatorId
  outcome := if run.completion.error.isSome then .failed else .succeeded
  runCount := run.runCount
  attempt := run.attempt
  runSeconds := some run.completion.runSeconds
  error := run.completion.error

/-- The recorded run of a booking. -/
def Booking.run? : Booking → Option RecordedRun
  | .recorded run => some run
  | .aggregated _ _ => none
  | .contributed _ => none

/-- What the row of a booking tells, if it is one. -/
def Booking.info? : Booking → Option OperatorAuditInfo
  | .recorded run => some run.info
  | .aggregated operatorId disposition => some (disposition.info operatorId)
  | .contributed _ => none

/-- A booking counts as a run of an operator. -/
def Booking.counts (operatorId : OperatorId) : Booking → Bool
  | .recorded run => decide (run.completion.operatorId = operatorId)
  | .aggregated _ _ => false
  | .contributed aggregator => decide (aggregator = operatorId)

/-- A booking is of an aggregation. -/
def Booking.aggregates : Booking → Bool
  | .recorded _ => false
  | .aggregated _ _ => true
  | .contributed _ => true

/-- What an action of an aggregation books. -/
def GatherAction.booking? : GatherAction → Option Booking
  | .dispose _ operatorId disposition => some (.aggregated operatorId disposition)
  | .contribute operatorId => some (.contributed operatorId)
  | _ => none

/-- How many runs of an operator are booked. -/
def countedRuns (operatorId : OperatorId) (booked : List Booking) : ℕ :=
  booked.countP (Booking.counts operatorId)

/-- The number of a recorded run goes on from the runs booked before it. -/
def Numbered (booked : List Booking) : Prop :=
  ∀ before run after, booked = before ++ .recorded run :: after →
    run.runCount = countedRuns run.completion.operatorId before + 1

/-- How many of the recorded runs are of an operator. -/
def runsOf (operatorId : OperatorId) (recorded : List RecordedRun) : ℕ :=
  recorded.countP (fun run => decide (run.completion.operatorId = operatorId))

/-- The watermark of an operator after some recorded runs. -/
def watermarkAfter (operatorId : OperatorId) (watermark : Option Revision)
    (recorded : List RecordedRun) : Option Revision :=
  recorded.foldl (fun watermark run =>
    if run.completion.operatorId = operatorId then run.advancedTo.or watermark else watermark)
    watermark

/-- What the rows of operator runs say. -/
def invocations (rows : List AuditLogEntry) : List String :=
  (rows.filter (fun row => decide (row.kind = "operator_invoked"))).map AuditLogEntry.detail

theorem invocations_append (first second : List AuditLogEntry) :
  invocations (first ++ second) = invocations first ++ invocations second
  := by
  rw [invocations, List.filter_append, List.map_append]
  rfl

/-- Rows of other kinds say nothing of operator runs. -/
theorem invocations_eq_nil {rows : List AuditLogEntry}
    (h : ∀ row ∈ rows, row.kind ≠ "operator_invoked") :
  invocations rows = []
  := by
  rw [invocations, List.filter_eq_nil_iff.mpr, List.map_nil]
  intro row hrow
  rw [decide_eq_true_eq]
  exact h row hrow

theorem runsOf_append (operatorId : OperatorId) (recorded : List RecordedRun)
    (run : RecordedRun) :
  runsOf operatorId (recorded ++ [run])
    = runsOf operatorId recorded + if run.completion.operatorId = operatorId then 1 else 0
  := by
  rw [runsOf, List.countP_append, List.countP_singleton, runsOf]
  simp only [decide_eq_true_eq]

theorem countedRuns_append (operatorId : OperatorId) (booked : List Booking) (booking : Booking) :
  countedRuns operatorId (booked ++ [booking])
    = countedRuns operatorId booked + if booking.counts operatorId = true then 1 else 0
  := by
  rw [countedRuns, List.countP_append, List.countP_singleton, countedRuns]

/-- One more booking, with the next number if it is a recorded run. -/
theorem Numbered.append {booked : List Booking} {booking : Booking} (h : Numbered booked)
    (hnumber : ∀ run, booking = .recorded run →
      run.runCount = countedRuns run.completion.operatorId booked + 1) :
  Numbered (booked ++ [booking])
  := by
  intro before run after hsplit
  obtain rfl | ⟨rest, last, rfl⟩ := List.eq_nil_or_concat after
  · obtain ⟨rfl, hsame⟩ := List.append_inj' hsplit rfl
    exact hnumber run (List.singleton_injective hsame)
  · rw [List.concat_eq_append, ← List.cons_append, ← List.append_assoc] at hsplit
    exact h before run rest (List.append_inj' hsplit rfl).1

theorem watermarkAfter_append (operatorId : OperatorId) (watermark : Option Revision)
    (recorded : List RecordedRun) (run : RecordedRun) :
  watermarkAfter operatorId watermark (recorded ++ [run])
    = if run.completion.operatorId = operatorId then
        run.advancedTo.or (watermarkAfter operatorId watermark recorded)
      else
        watermarkAfter operatorId watermark recorded
  := by
  rw [watermarkAfter, List.foldl_append]
  rfl

/-- What a batch is merged as comes from operators. -/
theorem isSome_operatorId_of_normalizeAll {batch : List QueuedEmission} {emitted : List Emitted}
    (h : normalizeAll batch = .ok emitted) :
  ∀ signal ∈ emitted, signal.operatorId.isSome = true
  := by
  have hall := forall₂_of_normalizeAll h
  clear h
  induction hall with
  | nil => exact nofun
  | cons hone _ ih =>
      rw [QueuedEmission.normalize] at hone
      split at hone
      · cases hone
      · cases hone
        exact List.forall_mem_cons.mpr ⟨rfl, ih⟩

namespace Gather

/-- Every signal is merged or recorded, or still on its way. -/
structure Flows (enqueued : List Signal) (recorded : List RecordedRun) (presented : List Emitted)
    (phase : GatherPhase) (queue : List Signal) : Prop where
  completions : completions enqueued
    = recorded.map RecordedRun.completion ++ (phase.held ++ completions queue)
  emissions : ∃ merged, emissions enqueued = merged ++ (phase.inHand ++ emissions queue)
    ∧ List.Forall₂ (fun queued emitted => queued.normalize = .ok emitted) merged
      (presented.filter (fun emitted => emitted.operatorId.isSome))

variable {P C O : Type}

/-- What is kept of the recorded runs, and of the aggregators, beside what the session had. -/
structure Booked (services : GatherServices P C O) (session state : MergeState)
    (memory : OperatorMemory) (recorded : List RecordedRun) (booked : List Booking) : Prop where
  ofRecorded : booked.filterMap Booking.run? = recorded
  /-- Only aggregators contribute. -/
  aggregators : ∀ operatorId, .contributed operatorId ∈ booked →
    aggregates services operatorId = true
  runs : ∀ operatorId, (memory.runs.get? operatorId).getD 0 = countedRuns operatorId booked
  numbered : Numbered booked
  breaker : ∀ operatorId, memory.breaker.runs operatorId = runsOf operatorId recorded
  rows : invocations state.audit.committed
    = invocations session.audit.committed
      ++ (booked.filterMap Booking.info?).map services.operatorDetail
  watermarks : ∀ operatorId, state.store.getWatermark operatorId
    = watermarkAfter operatorId (session.store.getWatermark operatorId) recorded

/-- What was merged is observed in the store. -/
def Kept (state : MergeState) (presented : List Emitted) : Prop :=
  ∀ emitted ∈ presented, SessionState.Observes state.store.entries emitted.dataPoint

/-- The accounts of a gather. -/
structure Accounted (services : GatherServices P C O) (session : MergeState) (gather : Gather O) :
    Prop where
  flows : Flows gather.enqueued gather.recorded gather.presented gather.phase gather.queue
  booked : Booked services session gather.state gather.memory gather.recorded gather.booked
  kept : Kept gather.state gather.presented

/-- A final drain at the deadline finds no completion on the queue. -/
def DropsNothing (gather : Gather O) : GatherAction → Prop
  | .drain _ _ => gather.phase.exit? = some .deadline → completions gather.queue = []
  | _ => True

instance (gather : Gather O) : DecidablePred (DropsNothing gather) := fun action => by
  cases action with
  | drain now faults => exact inferInstanceAs (Decidable (_ → _))
  | _ => exact .isTrue trivial

variable {services : GatherServices P C O} {gather gather' : Gather O}

/-! ### Signals -/

namespace Flows

variable {enqueued : List Signal} {recorded : List RecordedRun} {presented : List Emitted}
  {phase phase' : GatherPhase} {queue queue' : List Signal}

/-- As long as what is in hand and on the queue is the same, so are the accounts. -/
theorem of_same (h : Flows enqueued recorded presented phase queue)
    (hheld : phase'.held ++ Orcastork.completions queue'
      = phase.held ++ Orcastork.completions queue)
    (hinHand : phase'.inHand ++ Orcastork.emissions queue'
      = phase.inHand ++ Orcastork.emissions queue) :
  Flows enqueued recorded presented phase' queue'
  := by
  constructor
  · rw [hheld]
    exact h.completions
  · rw [hinHand]
    exact h.emissions

/-- The loop moves on with nothing in hand. -/
theorem of_emptyHanded (h : Flows enqueued recorded presented phase queue)
    (hbefore : phase.EmptyHanded) (hafter : phase'.EmptyHanded) :
  Flows enqueued recorded presented phase' queue
  := by
  apply h.of_same
  · rw [hbefore.held, hafter.held]
  · rw [hbefore.inHand, hafter.inHand]

/-- A signal is put on the queue. -/
theorem enqueue (h : Flows enqueued recorded presented phase queue) (signal : Signal) :
  Flows (enqueued ++ [signal]) recorded presented phase (queue ++ [signal])
  := by
  constructor
  · rw [completions_append, completions_append, h.completions, List.append_assoc,
      List.append_assoc]
  · obtain ⟨merged, hemissions, hmerged⟩ := h.emissions
    use merged
    rw [emissions_append, emissions_append, hemissions, List.append_assoc, List.append_assoc]
    exact ⟨rfl, hmerged⟩

/-- What has no operator is merged without a signal. -/
theorem present (h : Flows enqueued recorded presented phase queue)
    (dataPoints : List BaseDataPoint) :
  Flows enqueued recorded
    (presented ++ dataPoints.map (fun dataPoint => (⟨none, dataPoint⟩ : Emitted))) phase queue
  := by
  have hnone : (dataPoints.map (fun dataPoint => (⟨none, dataPoint⟩ : Emitted))).filter
      (fun emitted => emitted.operatorId.isSome) = [] := by
    rw [List.filter_eq_nil_iff]
    intro emitted hemitted
    obtain ⟨dataPoint, -, rfl⟩ := List.mem_map.mp hemitted
    exact nofun
  use h.completions
  rw [List.filter_append, hnone, List.append_nil]
  exact h.emissions

/-- A batch of emissions is merged. -/
theorem merge (h : Flows enqueued recorded presented phase queue) {batch : List QueuedEmission}
    {emitted : List Emitted} (hnormalized : normalizeAll batch = .ok emitted)
    (hheld : phase.held ++ Orcastork.completions queue
      = phase'.held ++ Orcastork.completions queue')
    (hinHand : phase.inHand ++ Orcastork.emissions queue
      = batch ++ (phase'.inHand ++ Orcastork.emissions queue')) :
  Flows enqueued recorded (presented ++ emitted) phase' queue'
  := by
  constructor
  · rw [← hheld]
    exact h.completions
  · obtain ⟨merged, hemissions, hmerged⟩ := h.emissions
    use merged ++ batch
    rw [hemissions, hinHand, List.append_assoc, List.filter_append,
      List.filter_eq_self.mpr (isSome_operatorId_of_normalizeAll hnormalized)]
    exact ⟨rfl, List.rel_append hmerged (forall₂_of_normalizeAll hnormalized)⟩

/-- The next completion in hand is recorded. -/
theorem record (h : Flows enqueued recorded presented phase queue) {run : RecordedRun}
    (hheld : phase.held = run.completion :: phase'.held) (hinHand : phase'.inHand = phase.inHand) :
  Flows enqueued (recorded ++ [run]) presented phase' queue
  := by
  constructor
  · rw [h.completions, hheld, List.map_append, List.append_assoc]
    rfl
  · rw [hinHand]
    exact h.emissions

end Flows

/-! ### Recorded runs -/

namespace Booked

variable {session state state' : MergeState} {memory : OperatorMemory}
  {recorded : List RecordedRun} {booked : List Booking}

/-- What is kept beside the store, the rows, the counts and the breaker does not matter. -/
theorem of_same (h : Booked services session state memory recorded booked)
    {memory' : OperatorMemory} (hstore : state'.store = state.store)
    (haudit : state'.audit = state.audit) (hruns : memory'.runs = memory.runs)
    (hbreaker : memory'.breaker = memory.breaker) :
  Booked services session state' memory' recorded booked
  := by
  refine ⟨h.ofRecorded, h.aggregators, ?_, h.numbered, ?_, ?_, ?_⟩
  · rw [hruns]
    exact h.runs
  · rw [hbreaker]
    exact h.breaker
  · rw [haudit]
    exact h.rows
  · rw [hstore]
    exact h.watermarks

/-- Merges count no runs. -/
theorem merges (h : Booked services session state memory recorded booked) {epoch : Epoch}
    {dataPoints : List BaseDataPoint}
    (hmerges : MergeState.Merges epoch dataPoints state state') :
  Booked services session state' memory recorded booked
  := by
  obtain ⟨rows, hrows, hkinds⟩ := hmerges.appends
  have hnone : invocations rows = [] := by
    apply invocations_eq_nil
    intro row hrow
    rw [hkinds row hrow]
    decide
  refine ⟨h.ofRecorded, h.aggregators, h.runs, h.numbered, h.breaker, ?_, ?_⟩
  · rw [hrows, invocations_append, hnone, List.append_nil]
    exact h.rows
  · intro operatorId
    rw [SessionState.getWatermark, hmerges.grows.watermarks]
    exact h.watermarks operatorId

/-- A row of another kind counts no run. -/
theorem audited (h : Booked services session state memory recorded booked) {entry : AuditLogEntry}
    {audit : AuditState} (hkind : entry.kind ≠ "operator_invoked")
    (happend : state.audit.append entry = .ok audit) :
  Booked services session { state with audit := audit } memory recorded booked
  := by
  refine ⟨h.ofRecorded, h.aggregators, h.runs, h.numbered, h.breaker, ?_, h.watermarks⟩
  rw [AuditState.append] at happend
  split at happend
  · cases happend
  · cases happend
    rw [invocations_append, invocations_eq_nil (List.forall_mem_singleton.mpr hkind),
      List.append_nil]
    exact h.rows

/-- A recorded run is counted. -/
theorem runs_remember (completion : Completion) (operatorId : OperatorId) :
  ((gather.remember services completion).2.runs.get? operatorId).getD 0
    = (gather.memory.runs.get? operatorId).getD 0
      + if completion.operatorId = operatorId then 1 else 0
  := by
  have hset : (gather.remember services completion).2.runs
      = gather.memory.runs.set completion.operatorId
        ((gather.memory.runs.get? completion.operatorId).getD 0 + 1) := by
    rcases @remember_cases P C O services gather completion with h | ⟨policy, -, -, -, -, h⟩ <;>
    · rw [h]
      rfl
  rw [hset, Dict.get?_set]
  split
  · rename_i hsame
    rw [hsame]
    rfl
  · rfl

/-- A recorded run is told to the breaker. -/
theorem breaker_remember (completion : Completion) :
  (gather.remember services completion).2.breaker
    = gather.memory.breaker.recordRun completion.operatorId
  := by
  rcases remember_cases completion with h | ⟨policy, -, -, -, -, h⟩ <;>
  · rw [h]
    rfl

/-- The row of a booking is its own. -/
theorem rows_append {epoch : Epoch} {now : Timestamp} {booking : Booking}
    {info : OperatorAuditInfo} {audit : AuditState}
    (h : Booked services session state memory recorded booked) (hinfo : booking.info? = some info)
    (happend : state.audit.append ⟨epoch, now, "operator_invoked", services.operatorDetail info⟩
      = .ok audit) :
  invocations audit.committed
    = invocations session.audit.committed
      ++ ((booked ++ [booking]).filterMap Booking.info?).map services.operatorDetail
  := by
  rw [AuditState.append] at happend
  split at happend
  · cases happend
  · cases happend
    rw [invocations_append, h.rows, List.filterMap_append, List.map_append, List.append_assoc,
      List.filterMap_cons_some hinfo]
    rfl

/-- A row of an aggregator counts no run. -/
theorem disposed {epoch : Epoch} {now : Timestamp} {operatorId : OperatorId}
    {disposition : AggregatorDisposition} {audit : AuditState}
    (h : Booked services session state memory recorded booked)
    (happend : state.audit.append
        ⟨epoch, now, "operator_invoked", services.operatorDetail (disposition.info operatorId)⟩
      = .ok audit) :
  Booked services session { state with audit := audit } memory recorded
    (booked ++ [.aggregated operatorId disposition])
  := by
  refine ⟨?_, ?_, ?_, ?_, h.breaker, h.rows_append rfl happend, h.watermarks⟩
  · rw [List.filterMap_append, h.ofRecorded]
    exact List.append_nil recorded
  · intro aggregator hmem
    obtain hmem | hmem := List.mem_append.mp hmem
    · exact h.aggregators aggregator hmem
    · cases List.mem_singleton.mp hmem
  · intro other
    rw [countedRuns_append]
    exact h.runs other
  · apply h.numbered.append
    intro run hsame
    cases hsame

/-- A contribution counts as a run of the aggregator, and of no other operator. -/
theorem contributed {operatorId : OperatorId}
    (h : Booked services session gather.state gather.memory gather.recorded gather.booked)
    (haggregates : aggregates services operatorId = true) :
  Booked services session (gather.contribute operatorId).state
    (gather.contribute operatorId).memory (gather.contribute operatorId).recorded
    (gather.contribute operatorId).booked
  := by
  refine ⟨?_, ?_, ?_, ?_, h.breaker, ?_, h.watermarks⟩
  · rw [contribute, List.filterMap_append, h.ofRecorded]
    exact List.append_nil gather.recorded
  · intro aggregator hmem
    obtain hmem | hmem := List.mem_append.mp hmem
    · exact h.aggregators aggregator hmem
    · cases List.mem_singleton.mp hmem
      exact haggregates
  · intro other
    rw [contribute, countedRuns_append, ← h.runs other, Dict.get?_set]
    by_cases hsame : operatorId = other
    · rw [if_pos hsame, Booking.counts, if_pos (decide_eq_true hsame), hsame]
      rfl
    · rw [if_neg hsame, if_neg (by rwa [Booking.counts, decide_eq_true_eq])]
      rfl
  · apply h.numbered.append
    intro run hsame
    cases hsame
  · rw [contribute, List.filterMap_append]
    change _ = _ ++ (gather.booked.filterMap Booking.info? ++ []).map services.operatorDetail
    rw [List.append_nil]
    exact h.rows

/-- A completion is recorded once, in each of the accounts. -/
theorem records
    (h : Booked services session gather.state gather.memory gather.recorded gather.booked)
    {now : Timestamp} {faults : RecordFaults} {completion : Completion}
    (hrecords : Records services gather now faults completion (.ok ()) gather') :
  ∃ run, run.completion = completion ∧ gather'.recorded = gather.recorded ++ [run]
    ∧ Booked services session gather'.state gather'.memory gather'.recorded gather'.booked
    ∧ gather'.state.store.entries = gather.state.store.entries
    ∧ gather'.enqueued = gather.enqueued ∧ gather'.presented = gather.presented
  := by
  have hruns : ∀ run : RecordedRun, run.completion = completion → ∀ operatorId,
      ((gather.remember services completion).2.runs.get? operatorId).getD 0
        = countedRuns operatorId (gather.booked ++ [.recorded run]) := by
    rintro run rfl operatorId
    rw [runs_remember, countedRuns_append, h.runs, Booking.counts]
    simp only [decide_eq_true_eq]
  have hrecorded : ∀ run : RecordedRun,
      (gather.booked ++ [Booking.recorded run]).filterMap Booking.run?
        = gather.recorded ++ [run] := by
    intro run
    rw [List.filterMap_append, h.ofRecorded]
    rfl
  have haggregators : ∀ (run : RecordedRun) operatorId,
      .contributed operatorId ∈ gather.booked ++ [.recorded run] →
      aggregates services operatorId = true := by
    intro run operatorId hmem
    obtain hmem | hmem := List.mem_append.mp hmem
    · exact h.aggregators operatorId hmem
    · cases List.mem_singleton.mp hmem
  have hnumbered : ∀ record, Numbered (gather.booked
      ++ [.recorded (gather.recordedRun services completion record)]) := by
    intro record
    apply h.numbered.append
    rintro run ⟨⟩
    change (gather.memory.runs.get? completion.operatorId).getD 0 + 1 = _
    rw [h.runs]
    rfl
  have hbreaker : ∀ run : RecordedRun, run.completion = completion → ∀ operatorId,
      (gather.remember services completion).2.breaker.runs operatorId
        = runsOf operatorId (gather.recorded ++ [run]) := by
    rintro run rfl operatorId
    rw [breaker_remember, CircuitBreaker.runs_recordRun, runsOf_append, h.breaker]
  cases hrecords with
  | @retried record audit _ hretrying happend =>
      refine ⟨_, rfl, rfl, ?_, rfl, rfl, rfl⟩
      refine ⟨hrecorded _, haggregators _, hruns _ rfl, hnumbered record, hbreaker _ rfl,
        h.rows_append rfl happend, ?_⟩
      intro operatorId
      rw [watermarkAfter_append, advancedTo_of_retrying record hretrying, Option.none_or, ite_self]
      exact h.watermarks operatorId
  | @advanced record audit store _ hretrying happend hstore =>
      have hset := SessionState.setWatermark_eq_ok hstore
      refine ⟨_, rfl, rfl, ?_, ?_, rfl, rfl⟩
      · refine ⟨hrecorded _, haggregators _, hruns _ rfl, hnumbered record, hbreaker _ rfl,
          h.rows_append rfl happend, ?_⟩
        intro operatorId
        rw [watermarkAfter_append, advancedTo_of_not_retrying record hretrying,
          Option.some_or, hset, SessionState.getWatermark, Dict.get?_set,
          ← h.watermarks operatorId]
        rfl
      · rw [hset]

end Booked

/-! ### Merges -/

/-- A merge keeps what was observed. -/
theorem Kept.merges {state state' : MergeState} {presented emitted : List Emitted}
    (h : Kept state presented) {epoch : Epoch}
    (hmerges : MergeState.Merges epoch (emitted.map Emitted.dataPoint) state state') :
  Kept state' (presented ++ emitted)
  := by
  intro signal hsignal
  rcases List.mem_append.mp hsignal with hsignal | hsignal
  · exact hmerges.grows.observes (h signal hsignal)
  · exact hmerges.observes _ (List.mem_map_of_mem hsignal)

/-- A merge of DataPoints without an operator. -/
theorem Kept.presents {state state' : MergeState} {presented : List Emitted}
    (h : Kept state presented) {epoch : Epoch} {dataPoints : List BaseDataPoint}
    (hmerges : MergeState.Merges epoch dataPoints state state') :
  Kept state' (presented ++ dataPoints.map (fun dataPoint => (⟨none, dataPoint⟩ : Emitted)))
  := by
  refine @Kept.merges state state' presented _ h epoch ?_
  rw [List.map_map, show Emitted.dataPoint ∘ (fun dataPoint => (⟨none, dataPoint⟩ : Emitted)) = id from rfl,
    List.map_id]
  exact hmerges

/-! ### Steps -/

/-- Where nothing runs, no completion is on its way. -/
theorem Sound.pending_eq_nil (h : Sound services gather)
    (hidle : gather.memory.running.keys = []) :
  gather.pending = []
  := by
  cases hpending : gather.pending with
  | nil => rfl
  | cons completion rest =>
      obtain ⟨i, hregister, -⟩ := h.awaited.tracked.reported completion.operatorId (by
        rw [shop, hpending]
        exact List.mem_cons_self)
      have hmem := Dict.mem_keys_of_get? hregister
      rw [shop, Dict.keys_map, hidle] at hmem
      cases hmem

/-- No final drain finds a completion, if one at the deadline finds none. -/
theorem Sound.completions_eq_nil (h : Sound services gather) {now : Timestamp}
    {faults : MergeFaults} (hdrops : DropsNothing gather (.drain now faults)) {exit : GatherExit}
    (hphase : gather.phase = .draining exit ∨ gather.phase = .drainingAgain exit) :
  completions gather.queue = []
  := by
  have hexit : gather.phase.exit? = some exit := by
    rcases hphase with hphase | hphase
    · rw [hphase]
      rfl
    · rw [hphase]
      rfl
  have hidle : exit.idle = true → completions gather.queue = [] := by
    intro hidle
    have hnone : gather.memory.running.keys = [] := by
      apply h.orderly.idle
      rcases hphase with hphase | hphase
      · rw [hphase]
        exact hidle
      · rw [hphase]
        exact hidle
    have hpending := h.pending_eq_nil hnone
    rw [pending] at hpending
    exact (List.append_eq_nil_iff.mp hpending).2
  cases exit with
  | quiescent => exact hidle rfl
  | parked => exact hidle rfl
  | deadline => exact hdrops hexit
  | raised error => exact absurd hexit (h.orderly.unraised error)

/-- Launches merge and record nothing. -/
theorem launches_frame (available : Finset CapabilityId) (observed : Revision)
    (runnables : List (Runnable O)) :
  let launched := runnables.foldl (launch services available observed) gather
  launched.state = gather.state ∧ launched.queue = gather.queue
    ∧ launched.enqueued = gather.enqueued ∧ launched.recorded = gather.recorded
    ∧ launched.presented = gather.presented ∧ launched.memory.runs = gather.memory.runs
    ∧ launched.memory.breaker = gather.memory.breaker ∧ launched.booked = gather.booked
  := by
  induction runnables generalizing gather with
  | nil => exact ⟨rfl, rfl, rfl, rfl, rfl, rfl, rfl, rfl⟩
  | cons runnable runnables ih => exact ih

theorem launchAll_frame (available : Finset CapabilityId) (observed : Revision)
    (plan : GatherPlan O) :
  let launched := gather.launchAll services available observed plan
  launched.state = gather.state ∧ launched.queue = gather.queue
    ∧ launched.enqueued = gather.enqueued ∧ launched.recorded = gather.recorded
    ∧ launched.presented = gather.presented ∧ launched.memory.runs = gather.memory.runs
    ∧ launched.memory.breaker = gather.memory.breaker ∧ launched.booked = gather.booked
  := @launches_frame P C O services
    { gather with memory := { gather.memory with debounce := plan.debounce } } available observed
    plan.runnable

namespace Accounted

variable {session : MergeState}

/-- The accounts at the start. -/
theorem start {epoch : Epoch} {caps : Dict OperatorId ℤ} {now : Monotonic} :
  Accounted services session (Gather.start services epoch caps now session)
  := by
  constructor
  · exact ⟨rfl, [], rfl, .nil⟩
  · constructor
    · rfl
    · exact nofun
    · exact fun _ => rfl
    · intro before run after hsplit
      cases before with
      | nil => cases hsplit
      | cons booking before => cases hsplit
    · exact fun _ => rfl
    · exact (List.append_nil _).symm
    · exact fun _ => rfl
  · exact nofun

variable [DecidableEq P] [DecidableEq C]

/-- A step in which nothing fails, and that drops no completion, keeps the accounts. -/
theorem step (h : Accounted services session gather) (hsound : Sound services gather)
    {action : GatherAction} (hfaults : action.FaultFree)
    (hnormal : action.Normal services.validate) (hdrops : DropsNothing gather action)
    (hstep : Steps services gather action gather') :
  Accounted services session gather'
  := by
  obtain ⟨hflows, hbooked, hkept⟩ := h
  have hsound' := hsound.advance hfaults hnormal hstep
  obtain ⟨hraised, hmergeFaults, hrecordFaults⟩ := hfaults
  cases hstep with
  | elapse span => exact ⟨hflows, hbooked, hkept⟩
  | audit hkind happend =>
      refine ⟨hflows, hbooked.audited ?_ happend, hkept⟩
      exact hkind.1
  | stopped _ _ _ => exact ⟨hflows, hbooked, hkept⟩
  | vanished _ _ => exact ⟨hflows, hbooked, hkept⟩
  | cancelled _ _ _ => exact ⟨hflows, hbooked, hkept⟩
  | emitted _ _ _ _ => exact ⟨hflows.enqueue _, hbooked, hkept⟩
  | completed _ _ _ => exact ⟨hflows.enqueue _, hbooked, hkept⟩
  | seeded _ hmerge =>
      cases hmergeFaults
      have hmerges := (hsound.inStep.mergeEmissions _ _ hmerge).2
      exact ⟨hflows.present _, hbooked.merges hmerges, hkept.merges hmerges⟩
  | seedRaised _ hmerge =>
      cases hmergeFaults
      cases (hsound.inStep.mergeEmissions _ _ hmerge).1
  | begun hphase _ =>
      have hempty := hsound.orderly.outside (by
        revert hphase
        cases gather.phase with
        | ready => exact fun _ => rfl
        | ended exit => exact fun _ => rfl
        | _ =>
            intros
            contradiction)
      have hhand : gather.phase.EmptyHanded := by
        revert hphase
        cases gather.phase with
        | ready => exact fun _ => ⟨rfl, rfl⟩
        | ended exit => exact fun _ => ⟨rfl, rfl⟩
        | _ =>
            intros
            contradiction
      rw [hempty] at hflows
      exact ⟨hflows.of_emptyHanded hhand ⟨rfl, rfl⟩, hbooked.of_same rfl rfl rfl rfl, hkept⟩
  | beginRaised _ _ => exact absurd rfl (hsound'.2.unraised _)
  | delivered _ hmerge =>
      cases hmergeFaults
      have hmerges := (hsound.inStep.applyInboxDataPoints _ _ hmerge).2
      exact ⟨hflows.present _, hbooked.merges hmerges, hkept.presents hmerges⟩
  | deliverRaised _ _ => exact absurd rfl (hsound'.2.unraised _)
  | @passed available view observed plan hphase _ _ _ =>
      obtain ⟨hstate, hqueue, henqueued, hrecorded, hpresented, hruns, hbreaker, hsame⟩ :=
        @launchAll_frame P C O services gather available observed plan
      have hnext := @emptyHanded_nextPhase P C O services
        (gather.launchAll services available observed plan) _ view plan.soonestDue
      constructor
      · simp only [henqueued, hrecorded, hpresented, hqueue]
        rw [hphase] at hflows
        exact hflows.of_emptyHanded ⟨rfl, rfl⟩ hnext
      · simp only [hstate, hrecorded, hsame]
        exact hbooked.of_same rfl rfl hruns hbreaker
      · simp only [hstate, hpresented]
        exact hkept
  | passRaised _ _ => exact absurd rfl (hsound'.2.unraised _)
  | taken hphase =>
      refine ⟨?_, hbooked, hkept⟩
      rw [hphase] at hflows
      apply hflows.of_same
      · exact List.append_nil _
      · exact List.append_nil _
  | @merged now faults batch emitted state hphase hnormalized hmerge =>
      cases hmergeFaults
      have hmerges := (hsound.inStep.mergeEmissions _ _ hmerge).2
      refine ⟨?_, hbooked.merges hmerges, hkept.merges hmerges⟩
      rw [hphase] at hflows
      apply hflows.merge hnormalized
      · rw [held_recordRest]
        rfl
      · rw [recordRest]
        split
        · rfl
        · rfl
  | mergeRaised _ _ => exact absurd rfl (hsound'.2.unraised _)
  | @recorded now faults completion rest recorded hphase hrecords =>
      obtain ⟨run, hrun, hrecorded, hbooked', hentries, henqueued, hpresented⟩ :=
        hbooked.records hrecords
      obtain ⟨record, hrunning⟩ := hsound.running hphase
      obtain ⟨-, -, hqueue⟩ := hrecords.running hrunning
      refine ⟨?_, hbooked', ?_⟩
      · have hheld := @held_recordRest O recorded rest
        have hinHand : (recorded.recordRest rest).phase.inHand = [] := by
          rw [recordRest]
          split
          · rfl
          · rfl
        change Flows recorded.enqueued recorded.recorded recorded.presented
          (recorded.recordRest rest).phase recorded.queue
        rw [henqueued, hrecorded, hpresented, hqueue]
        apply hflows.record
        · rw [hphase, hrun, hheld]
          rfl
        · rw [hphase, hinHand]
          rfl
      · rw [recordRest, Kept, hentries, hpresented]
        exact hkept
  | recordRaised _ _ => exact absurd rfl (hsound'.2.unraised _)
  | @drained now faults exit emitted state hphase hnormalized hmerge =>
      cases hmergeFaults
      have hmerges := (hsound.inStep.mergeEmissions _ _ hmerge).2
      have hnone := hsound.completions_eq_nil hdrops (Or.inl hphase)
      refine ⟨?_, hbooked.merges hmerges, hkept.merges hmerges⟩
      rw [hphase] at hflows
      have hnext : (if gather.memory.running.keys.isEmpty = true then
          GatherPhase.drainingAgain exit else .cancelling exit).EmptyHanded := by
        split
        · exact ⟨rfl, rfl⟩
        · exact ⟨rfl, rfl⟩
      apply hflows.merge hnormalized
      · rw [hnone, hnext.held]
        rfl
      · rw [hnext.inHand]
        exact (List.append_nil _).symm
  | drainedAgain hphase hnormalized hmerge =>
      cases hmergeFaults
      have hmerges := (hsound.inStep.mergeEmissions _ _ hmerge).2
      have hnone := hsound.completions_eq_nil hdrops (Or.inr hphase)
      refine ⟨?_, hbooked.merges hmerges, hkept.merges hmerges⟩
      rw [hphase] at hflows
      apply hflows.merge hnormalized
      · rw [hnone]
        rfl
      · exact (List.append_nil _).symm
  | drainRaised _ _ => exact absurd rfl (hsound'.2.unraised _)
  | moved hmoves =>
      obtain ⟨hbefore, hafter⟩ := hmoves.emptyHanded
      exact ⟨hflows.of_emptyHanded hbefore hafter, hbooked, hkept⟩
  | disposed _ happend => exact ⟨hflows, hbooked.disposed happend, hkept⟩
  | contributed _ haggregates => exact ⟨hflows, hbooked.contributed haggregates, hkept⟩

end Accounted

/-! ### Watermark or retry -/

/-- A recorded run is settled: its watermark is moved, or its retry is armed. -/
def Settled (gather : Gather O) (run : RecordedRun) : Prop :=
  match run.advancedTo with
  | some revision => gather.state.store.getWatermark run.completion.operatorId = some revision
  | none => gather.memory.retries.isScheduled run.completion.operatorId = true

/-- A failed run that will be retried has its retry armed. -/
theorem isScheduled_remember {completion : Completion}
    (h : (gather.remember services completion).1 = true) :
  (gather.remember services completion).2.retries.isScheduled completion.operatorId = true
  := by
  rw [isScheduled_retries_remember, h, decide_eq_true rfl, Bool.and_true, Bool.true_or]

/-- The recording of a completion settles its run. -/
theorem Records.settled {now : Timestamp} {faults : RecordFaults} {completion : Completion}
    {result : Except OrchestrationError Unit}
    (h : Records services gather now faults completion result gather') :
  gather'.recorded = gather.recorded
    ∨ ∃ run, gather'.recorded = gather.recorded ++ [run] ∧ gather'.Settled run
  := by
  cases h with
  | unknown _ => exact Or.inl rfl
  | auditRaised _ _ => exact Or.inl rfl
  | watermarkRaised _ _ _ => exact Or.inl rfl
  | @retried record audit _ hretrying _ =>
      right
      refine ⟨_, rfl, ?_⟩
      rw [Settled, advancedTo_of_retrying record hretrying]
      exact isScheduled_remember hretrying
  | @advanced record audit store _ hretrying _ hstore =>
      right
      refine ⟨_, rfl, ?_⟩
      rw [Settled, advancedTo_of_not_retrying record hretrying,
        SessionState.setWatermark_eq_ok hstore]
      exact Dict.get?_set_self _ _ _

variable [DecidableEq P] [DecidableEq C]

/-- A step records at most one run, and settles it. -/
theorem settled_step {action : GatherAction} (hstep : Steps services gather action gather') :
  gather'.recorded = gather.recorded
    ∨ ∃ run, gather'.recorded = gather.recorded ++ [run] ∧ gather'.Settled run
  := by
  cases hstep with
  | @passed available view observed plan _ _ _ _ =>
      left
      exact (@launchAll_frame P C O services gather available observed plan).2.2.2.1
  | recorded _ hrecords => exact hrecords.settled
  | recordRaised _ hrecords => exact hrecords.settled
  | _ => exact Or.inl rfl

omit [DecidableEq P] [DecidableEq C] in
/-- A recorded run is no booking of an aggregation. -/
theorem Records.aggregations {now : Timestamp} {faults : RecordFaults} {completion : Completion}
    {result : Except OrchestrationError Unit}
    (h : Records services gather now faults completion result gather') :
  gather'.booked.filter Booking.aggregates = gather.booked.filter Booking.aggregates
  := by
  have hnone : ∀ run, (gather.booked ++ [Booking.recorded run]).filter Booking.aggregates
      = gather.booked.filter Booking.aggregates := by
    intro run
    rw [List.filter_append]
    exact List.append_nil _
  cases h with
  | unknown _ => rfl
  | auditRaised _ _ => rfl
  | watermarkRaised _ _ _ => exact hnone _
  | retried _ _ _ => exact hnone _
  | advanced _ _ _ _ => exact hnone _

/-- No other step than those of an aggregation books one. -/
theorem aggregations_eq {action : GatherAction} (hother : action.booking? = none)
    (hstep : Steps services gather action gather') :
  gather'.booked.filter Booking.aggregates = gather.booked.filter Booking.aggregates
  := by
  cases hstep with
  | @passed available view observed plan _ _ _ _ =>
      obtain ⟨-, -, -, -, -, -, -, hsame⟩ :=
        @launchAll_frame P C O services gather available observed plan
      rw [hsame]
  | recorded _ hrecords => exact hrecords.aggregations
  | recordRaised _ hrecords => exact hrecords.aggregations
  | disposed _ _ => cases hother
  | contributed _ _ => cases hother
  | _ => rfl

/-- A step of an aggregation books what it is of. -/
theorem aggregations_step {action : GatherAction}
    (hnext : gather.step services action = some gather') :
  gather'.booked.filter Booking.aggregates
    = gather.booked.filter Booking.aggregates ++ action.booking?.toList
  := by
  have hstep := steps_of_step hnext
  cases action with
  | dispose now operatorId disposition =>
      rw [Gather.step] at hnext
      split at hnext
      · rw [dispose] at hnext
        split at hnext
        · cases hnext
        · cases hnext
          exact List.filter_append _ _
      · cases hnext
  | contribute operatorId =>
      rw [Gather.step] at hnext
      split at hnext
      · cases hnext
        exact List.filter_append _ _
      · cases hnext
  | _ => exact (aggregations_eq rfl hstep).trans (List.append_nil _).symm

/-! ### Runs -/

/-- What a run has booked of aggregations are its actions of them, in order. -/
theorem aggregations_run {caps : Dict OperatorId ℤ} {epoch : Epoch} {now : Monotonic}
    {session : MergeState} {actions : List GatherAction}
    (hrun : TransitionSystem.run (Gather.step services) (.start services epoch caps now session)
      actions = some gather) :
  gather.booked.filter Booking.aggregates = actions.filterMap GatherAction.booking?
  := by
  apply @TransitionSystem.run_history (Gather O) GatherAction (Gather.step services)
    (fun taken gather =>
      gather.booked.filter Booking.aggregates = taken.filterMap GatherAction.booking?)
    _ [] _ gather actions rfl hrun
  intro taken gather action gather' hbefore hnext
  rw [aggregations_step hnext, hbefore, List.filterMap_append]
  rfl

section Runs

variable (services : GatherServices P C O) {session : MergeState}
  (hwellFormed : session.store.WellFormed) {epoch : Epoch} (hcurrent : session.Current epoch)
  (caps : Dict OperatorId ℤ) (now : Monotonic) {actions : List GatherAction}
  (hfaults : ∀ action ∈ actions, action.FaultFree)
  (hnormal : ∀ action ∈ actions, action.Normal services.validate)
  (hlaunches : TransitionSystem.Always (Gather.step services) (LaunchesOnce services)
    (.start services epoch caps now session) actions)

include hwellFormed hcurrent hfaults hnormal hlaunches

/-- Nothing has failed after a run without faults. -/
theorem sound_run {gather : Gather O}
    (hrun : TransitionSystem.run (Gather.step services) (.start services epoch caps now session)
      actions = some gather) :
  Sound services gather
  := by
  have halways := TransitionSystem.always_and
    (TransitionSystem.always_and (TransitionSystem.always_of_forall_mem hfaults)
      (TransitionSystem.always_of_forall_mem hnormal)) hlaunches
  apply TransitionSystem.run_invariant_of_always _ (Sound.start hwellFormed hcurrent caps now)
    halways hrun
  rintro gather action gather' hsound ⟨⟨hfault, hnormal⟩, hlaunch⟩ hnext
  exact hsound.step hfault hnormal hlaunch (steps_of_step hnext)

variable (hdrops : TransitionSystem.Always (Gather.step services) DropsNothing
  (.start services epoch caps now session) actions)

include hdrops

/-- The accounts are kept by a run that drops no completion. -/
theorem accounted_run {gather : Gather O}
    (hrun : TransitionSystem.run (Gather.step services) (.start services epoch caps now session)
      actions = some gather) :
  Accounted services session gather
  := by
  have halways := TransitionSystem.always_and
    (TransitionSystem.always_and (TransitionSystem.always_of_forall_mem hfaults)
      (TransitionSystem.always_of_forall_mem hnormal))
    (TransitionSystem.always_and hlaunches hdrops)
  have hinvariant : Sound services gather ∧ Accounted services session gather := by
    apply TransitionSystem.run_invariant_of_always _
      ⟨Sound.start hwellFormed hcurrent caps now, Accounted.start⟩ halways hrun
    rintro gather action gather' ⟨hsound, haccounted⟩ ⟨⟨hfault, hnormal⟩, hlaunch, hdrop⟩ hnext
    have hstep := steps_of_step hnext
    exact ⟨hsound.step hfault hnormal hlaunch hstep,
      haccounted.step hsound hfault hnormal hdrop hstep⟩
  exact hinvariant.2

end Runs

omit [DecidableEq P] [DecidableEq C] in
/-- At an end nothing is on its way, and the end is not an error. -/
theorem Sound.ended (h : Sound services gather) {exit : GatherExit}
    (hphase : gather.phase = .ended exit) :
  gather.pending = [] ∧ gather.queue = [] ∧ ∀ error, exit ≠ .raised error
  := by
  have hqueue := h.orderly.outside (by rw [hphase]; rfl)
  refine ⟨?_, hqueue, ?_⟩
  · rw [pending, hqueue, hphase]
    rfl
  · rintro error rfl
    exact h.orderly.unraised error (by rw [hphase]; rfl)

/-- After a run without faults in which no drain at the deadline finds a completion, every signal
enqueued has been merged or recorded once, or is on its way, and beside the recorded runs what the
aggregations did is booked; when a gather ends, no signal is on its way. Each run that was recorded
was settled as it was. -/
theorem completions_accounted (services : GatherServices P C O) {session : MergeState}
    (hwellFormed : session.store.WellFormed) {epoch : Epoch} (hcurrent : session.Current epoch)
    (caps : Dict OperatorId ℤ) (now : Monotonic) {actions : List GatherAction}
    (hfaults : ∀ action ∈ actions, action.FaultFree)
    (hnormal : ∀ action ∈ actions, action.Normal services.validate)
    (hlaunches : TransitionSystem.Always (Gather.step services) (LaunchesOnce services)
      (.start services epoch caps now session) actions)
    (hdrops : TransitionSystem.Always (Gather.step services) DropsNothing
      (.start services epoch caps now session) actions)
    {gather : Gather O}
    (hrun : TransitionSystem.run (Gather.step services) (.start services epoch caps now session)
      actions = some gather) :
  Accounted services session gather
    ∧ gather.booked.filter Booking.aggregates = actions.filterMap GatherAction.booking?
    ∧ (∀ exit, gather.phase = .ended exit →
      gather.pending = [] ∧ gather.queue = [] ∧ ∀ error, exit ≠ .raised error)
    ∧ ∀ taken action rest before after, actions = taken ++ action :: rest →
      TransitionSystem.run (Gather.step services) (.start services epoch caps now session) taken
        = some before →
      Gather.step services before action = some after →
      after.recorded = before.recorded
        ∨ ∃ run, after.recorded = before.recorded ++ [run] ∧ after.Settled run
  := by
  have hsound := sound_run services hwellFormed hcurrent caps now hfaults hnormal hlaunches hrun
  refine ⟨accounted_run services hwellFormed hcurrent caps now hfaults hnormal hlaunches hdrops
    hrun, aggregations_run hrun, ?_, ?_⟩
  · intro exit hphase
    exact hsound.ended hphase
  · intro taken action rest before after _ _ hnext
    exact settled_step (steps_of_step hnext)

end Gather

/-! ### A gather of texts -/

/-- An operator emits once and is done; the loop merges, records, and finds nothing to do. -/
def quiescentActions : List GatherAction :=
  [.begin' 100, .renew none, .inboxDone none, .refresh ∅ none, .emit 0 ⟨"note", .str "a"⟩ 0,
    .finish 0, .complete 0 3, .take, .merge 0 .none, .record 0 ⟨none, none⟩, .renew none,
    .inboxDone none, .refresh ∅ none, .drain 0 .none, .drain 0 .none]

/-- The operator is done while its emission is merged, and then the deadline is over. -/
def deadlineActions : List GatherAction :=
  [.begin' 100, .renew none, .inboxDone none, .refresh ∅ none, .emit 0 ⟨"note", .str "a"⟩ 0, .take,
    .finish 0, .complete 0 3, .merge 0 .none, .elapse 100, .renew none, .drain 0 .none, .awaited,
    .drain 0 .none]

theorem faultFree_quiescentActions :
  ∀ action ∈ quiescentActions, action.FaultFree
  := List.forall_iff_forall_mem.mp (by repeat' constructor)

theorem faultFree_deadlineActions :
  ∀ action ∈ deadlineActions, action.FaultFree
  := List.forall_iff_forall_mem.mp (by repeat' constructor)

/-- Texts can be normalized. -/
theorem normal_quiescentActions :
  ∀ action ∈ quiescentActions, action.Normal (textGather ["reader"] none).validate
  := by
  have hall : quiescentActions.Forall
      (GatherAction.Normal (textGather ["reader"] none).validate) := by
    repeat' constructor
    intro value hvalue
    cases hvalue
    exact ⟨_, rfl⟩
  exact List.forall_iff_forall_mem.mp hall

/-- A session of which nothing is kept yet accepted no epoch. -/
theorem current_initial :
  (Recording.initial "s").state.Current 1
  := ⟨Nat.zero_le 1, Nat.zero_le 1, Nat.zero_le 1⟩

/-- The flow of the reader, as an aggregator that also runs in the gather. -/
def foldGather : GatherServices DataPointType CapabilityId OperatorId :=
  { textGather ["reader"] none with
    flow := { (textGather ["reader"] none).flow with aggregator := fun _ => some ⟨true, ∅⟩ } }

/-- The reader is done, and finalized; then the session is gathered again, with nothing to do. -/
def redrivenActions : List GatherAction :=
  quiescentActions ++ [.dispose 0 "reader" (.attempted 1 2 none), .contribute "reader",
    .begin' 200, .renew none, .inboxDone none, .refresh ∅ none, .drain 0 .none, .drain 0 .none]

theorem faultFree_redrivenActions :
  ∀ action ∈ redrivenActions, action.FaultFree
  := by
  rw [redrivenActions, List.forall_mem_append]
  use faultFree_quiescentActions
  exact List.forall_iff_forall_mem.mp (by repeat' constructor)

theorem normal_redrivenActions :
  ∀ action ∈ redrivenActions, action.Normal foldGather.validate
  := by
  rw [redrivenActions, List.forall_mem_append]
  use normal_quiescentActions
  exact List.forall_iff_forall_mem.mp (by repeat' constructor)

/-- The accounts close over the re-drive: the run in the gather is recorded, and the finalize is
counted beside it. -/
theorem completions_accounted_redriven :
  ∃ gather,
    TransitionSystem.run (Gather.step foldGather)
        (.start foldGather 1 .empty 0 (Recording.initial "s").state) redrivenActions
      = some gather
    ∧ gather.phase = .ended .quiescent
    ∧ gather.recorded.map RecordedRun.completion = [⟨"reader", none, 3⟩]
    ∧ gather.memory.runs.get? "reader" = some 2
    ∧ Gather.Accounted foldGather (Recording.initial "s").state gather
    ∧ gather.booked.filter Booking.aggregates
      = [.aggregated "reader" (.attempted 1 2 none), .contributed "reader"]
    ∧ gather.pending = []
  := by
  obtain ⟨gather, hrun, hphase, hrecorded, hruns⟩ : ∃ gather,
      TransitionSystem.run (Gather.step foldGather)
          (.start foldGather 1 .empty 0 (Recording.initial "s").state) redrivenActions
        = some gather
      ∧ gather.phase = .ended .quiescent
      ∧ gather.recorded.map RecordedRun.completion = [⟨"reader", none, 3⟩]
      ∧ gather.memory.runs.get? "reader" = some 2 := ⟨_, rfl, rfl, rfl, rfl⟩
  have hlisted : Gather.ListedOnce foldGather := listedOnce_reader
  obtain ⟨haccounted, hbooked, hended, -⟩ := Gather.completions_accounted foldGather
    SessionState.initial_wellFormed current_initial .empty 0 faultFree_redrivenActions
    normal_redrivenActions
    (fun _ action _ _ gather _ => Gather.launchesOnce_of_listedOnce hlisted gather action)
    (by decide) hrun
  exact ⟨gather, hrun, hphase, hrecorded, hruns, haccounted, hbooked, (hended _ hphase).1⟩

/-- A completion that comes while the last merge before the deadline is under way is dropped: the
run is neither counted nor recorded. -/
theorem completion_dropped_deadline :
  ¬∀ gather exit, (∀ action ∈ deadlineActions, action.FaultFree) →
    TransitionSystem.run (Gather.step (textGather ["reader"] none))
        (.start (textGather ["reader"] none) 1 .empty 0 (Recording.initial "s").state)
        deadlineActions
      = some gather →
    gather.phase = .ended exit →
    gather.recorded.map RecordedRun.completion = completions gather.enqueued
  := by
  intro h
  have hsame := h _ _ faultFree_deadlineActions rfl rfl
  cases hsame

end Orcastork
