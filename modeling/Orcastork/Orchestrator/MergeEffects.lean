import Orcastork.Adapters.Memory.StoreMerge
import Orcastork.Orchestrator.Bookkeeping

/-!
# What a merge leaves behind

Whether a merge returns or raises, its mirror agrees with its store, and the store is as it was or
what one write made of it (`MergeState.Grows`). A merge of the highest epoch in which no port call
raises returns, and it appends only rows of DataPoints (`mergeEmissions_undisturbed`,
`applyInboxDataPoints_undisturbed`).
-/

namespace Orcastork

/-- The keys of the mirror are kept, its entries agree with the store, and the store was written
at most once. -/
structure MergeState.Grows (epoch : Epoch) (state state' : MergeState) : Prop where
  agrees : Agrees state'.mirror state'.store
  sessionId : state'.mirror.sessionId = state.mirror.sessionId
  rehydratedAt : state'.mirror.rehydratedAt = state.mirror.rehydratedAt
  baselines : state'.mirror.baselines = state.mirror.baselines
  watermarks : state'.store.watermarks = state.store.watermarks
  written : state'.store = state.store
    ∨ ∃ batch revision, state.store.write batch epoch = .ok (revision, state'.store)

/-- The audit log goes on, with rows of DataPoints. -/
def MergeState.AppendsDataPoints (state state' : MergeState) : Prop :=
  ∃ rows, state'.audit.committed = state.audit.committed ++ rows
    ∧ ∀ row ∈ rows, row.kind = "data_point_added"

/-- A merge of DataPoints that went through: they are observed in the store. -/
structure MergeState.Merges (epoch : Epoch) (dataPoints : List BaseDataPoint)
    (state state' : MergeState) : Prop where
  grows : state.Grows epoch state'
  current : state'.Current epoch
  appends : state.AppendsDataPoints state'
  observes : ∀ dataPoint ∈ dataPoints,
    SessionState.Observes state'.store.entries dataPoint

/-- A write touches no watermark. -/
theorem SessionState.watermarks_write {state state' : SessionState} {batch : List BaseDataPoint}
    {epoch : Epoch} {revision : Revision} (h : state.write batch epoch = .ok (revision, state')) :
  state'.watermarks = state.watermarks ∧ state'.maxEpoch = epoch
  := by
  rcases Nat.lt_or_ge epoch state.maxEpoch with hlt | hle
  · rw [write_of_lt hlt] at h
    cases h
  · rw [write_of_le hle rfl] at h
    cases h
    exact ⟨rfl, rfl⟩

namespace MergeState

variable {services : MergeServices} {call : MergeCall} {state state' : MergeState}

theorem Grows.refl {epoch : Epoch} (h : Agrees state.mirror state.store) :
  state.Grows epoch state
  := ⟨h, rfl, rfl, rfl, rfl, Or.inl rfl⟩

/-- What is observed stays so. -/
theorem Grows.observes {epoch : Epoch} (h : state.Grows epoch state') {dataPoint : BaseDataPoint}
    (hobserves : SessionState.Observes state.store.entries dataPoint) :
  SessionState.Observes state'.store.entries dataPoint
  := by
  rcases h.written with hsame | ⟨batch, revision, hwrite⟩
  · rw [hsame]
    exact hobserves
  · exact SessionState.observes_write hwrite (Or.inr hobserves)

/-- The write of a batch through the mirror. -/
theorem grows_write (h : Agrees state.mirror state.store) (dataPoints : List BaseDataPoint) :
  state.Grows call.epoch (state.write call dataPoints).2
  := by
  generalize hwrite : state.write call dataPoints = written
  obtain ⟨result, state'⟩ := written
  cases result with
  | error error =>
      rw [write_eq_error h hwrite]
      exact .refl h
  | ok result =>
      obtain ⟨⟨revision, hstore⟩, hagrees, -, -⟩ := write_eq_ok h hwrite
      have hmirror : state'.mirror.sessionId = state.mirror.sessionId
          ∧ state'.mirror.rehydratedAt = state.mirror.rehydratedAt
          ∧ state'.mirror.baselines = state.mirror.baselines := by
        rw [write] at hwrite
        split at hwrite
        · cases hwrite
        · rw [(h.write_ok hstore).1] at hwrite
          obtain ⟨-, hstate⟩ := Prod.mk.inj hwrite
          have hmirror := congrArg MergeState.mirror hstate
          rw [← hmirror]
          exact ⟨rfl, rfl, rfl⟩
      exact ⟨hagrees, hmirror.1, hmirror.2.1, hmirror.2.2,
        (SessionState.watermarks_write hstore).1, Or.inr ⟨dataPoints, revision, hstore⟩⟩

/-- Bookkeeping reads and writes neither the mirror nor the store. -/
theorem Grows.bookkeeping {epoch : Epoch} {written : MergeState}
    (h : state.Grows epoch written) (emitted : List Emitted) (outcomes : List MergeResult) :
  state.Grows epoch (written.mergeBookkeeping services call emitted outcomes).2
  := by
  obtain ⟨hmirror, hstore⟩ :=
    @mergeBookkeeping_frame services call written emitted outcomes
  obtain ⟨hagrees, hsessionId, hrehydratedAt, hbaselines, hwatermarks, hwritten⟩ := h
  constructor
  · rw [hmirror, hstore]
    exact hagrees
  · rw [hmirror, hsessionId]
  · rw [hmirror, hrehydratedAt]
  · rw [hmirror, hbaselines]
  · rw [hstore, hwatermarks]
  · rw [hstore]
    exact hwritten

theorem grows_mergeEmissions (h : Agrees state.mirror state.store) (emitted : List Emitted) :
  state.Grows call.epoch (state.mergeEmissions services call emitted).2
  := by
  rw [mergeEmissions]
  split
  · exact .refl h
  · have hgrows := @grows_write call state h (emitted.map Emitted.dataPoint)
    split
    · rename_i error written hwrite
      rw [hwrite] at hgrows
      exact hgrows
    · rename_i result written hwrite
      rw [hwrite] at hgrows
      exact hgrows.bookkeeping emitted result.outcomes

theorem grows_applyInboxDataPoints (h : Agrees state.mirror state.store)
    (dataPoints : List BaseDataPoint) :
  state.Grows call.epoch (state.applyInboxDataPoints services call dataPoints).2
  := by
  have hgrows := @grows_write call state h
    ((dataPoints.map (fun dp => (⟨none, dp⟩ : Emitted))).map Emitted.dataPoint)
  rw [applyInboxDataPoints]
  split
  · rename_i error written hwrite
    rw [hwrite] at hgrows
    exact hgrows
  · rename_i result written hwrite
    rw [hwrite] at hgrows
    have hbooked := @Grows.bookkeeping services call state call.epoch written hgrows
      (dataPoints.map (fun dp => (⟨none, dp⟩ : Emitted))) result.outcomes
    split
    · rename_i booked hbook
      rw [hbook] at hbooked
      exact hbooked
    · rename_i error booked hbook
      rw [hbook] at hbooked
      split
      · exact hbooked
      · exact hbooked

/-! ### Without faults -/

/-- A batch booked without faults appends the rows of its newcomers. -/
theorem appends_mergeBookkeeping (hfaults : call.faults = .none) {emitted : List Emitted}
    {outcomes : List MergeResult}
    (h : state.mergeBookkeeping services call emitted outcomes = (.ok (), state')) :
  state.AppendsDataPoints state'
  := by
  obtain ⟨haudit, -, -⟩ := audit_mergeBookkeeping (by rw [hfaults]; rfl) h
  refine ⟨_, haudit, ?_⟩
  have hkinds : ∀ (signals : List (Emitted × MergeResult)) (books : Books),
      (∀ row ∈ books.auditEntries, row.kind = "data_point_added") →
      ∀ row ∈ (signals.foldl (Books.book services call) books).auditEntries,
        row.kind = "data_point_added" := by
    intro signals
    induction signals with
    | nil => exact fun books hbooks => hbooks
    | cons signal signals ih =>
        intro books hbooks
        obtain ⟨signal, outcome⟩ := signal
        apply ih
        rw [auditEntries_book]
        intro row hrow
        rcases List.mem_append.mp hrow with hrow | hrow
        · exact hbooks row hrow
        · split at hrow
          · rw [List.mem_singleton.mp hrow, dataPointAuditEntry]
          · cases hrow
  apply hkinds
  exact nofun

/-- Bookkeeping of a current epoch without faults returns. -/
theorem mergeBookkeeping_undisturbed (hcurrent : state.Current call.epoch)
    (hfaults : call.faults = .none) (emitted : List Emitted) (outcomes : List MergeResult) :
  ∃ state', state.mergeBookkeeping services call emitted outcomes = (.ok (), state')
    ∧ state'.Current call.epoch ∧ state.AppendsDataPoints state'
  := by
  have hunfenced : call.faults.Unfenced call.epoch := by
    rw [hfaults]
    exact ⟨nofun, nofun, nofun⟩
  obtain ⟨hcurrent', hnever⟩ := @mergeBookkeeping_unfenced services call state hunfenced hcurrent
    emitted outcomes
  generalize hbook : state.mergeBookkeeping services call emitted outcomes = booked
    at hcurrent' hnever
  obtain ⟨result, state'⟩ := booked
  cases result with
  | ok _ => exact ⟨state', rfl, hcurrent', appends_mergeBookkeeping hfaults hbook⟩
  | error error =>
      have hstale : error.isStaleEpoch = true := by
        refine @isStaleEpoch_mergeBookkeeping services call state (by rw [hfaults]; rfl)
          (by rw [hfaults]; rfl) emitted outcomes error ?_
        exact congrArg Prod.fst hbook
      rw [hnever error rfl] at hstale
      cases hstale

/-- A write of a current epoch without faults returns. -/
theorem write_undisturbed (h : Agrees state.mirror state.store)
    (hcurrent : state.Current call.epoch) (hfaults : call.faults = .none)
    (dataPoints : List BaseDataPoint) :
  ∃ result written, state.write call dataPoints = (.ok result, written)
    ∧ written.Current call.epoch ∧ written.audit = state.audit
    ∧ ∀ dataPoint ∈ dataPoints, SessionState.Observes written.store.entries dataPoint
  := by
  generalize hwrite : state.write call dataPoints = written
  obtain ⟨result, written⟩ := written
  cases result with
  | error error =>
      rcases write_rejected h hwrite with hfault | ⟨-, hlt⟩
      · rw [hfaults] at hfault
        cases hfault
      · exact absurd hcurrent.store (Nat.not_le.mpr hlt)
  | ok result =>
      obtain ⟨⟨revision, hstore⟩, -, -, hframe⟩ := write_eq_ok h hwrite
      have hepoch := (SessionState.watermarks_write hstore).2
      refine ⟨result, written, rfl, ?_, ?_, ?_⟩
      · constructor
        · exact Nat.le_of_eq hepoch
        · rw [hframe]
          exact hcurrent.audit
        · rw [hframe]
          exact hcurrent.archive
      · rw [hframe]
      · intro dataPoint hmem
        exact SessionState.observes_write hstore (Or.inl hmem)

/-- A batch that is written without faults is booked without faults. -/
theorem merges_written {emitted : List Emitted} (h : Agrees state.mirror state.store)
    (hcurrent : state.Current call.epoch) (hfaults : call.faults = .none) :
  ∃ result written booked,
    state.write call (emitted.map Emitted.dataPoint) = (.ok result, written)
      ∧ written.mergeBookkeeping services call emitted result.outcomes = (.ok (), booked)
      ∧ Merges call.epoch (emitted.map Emitted.dataPoint) state booked
  := by
  obtain ⟨result, written, hwrite, hwritten, haudit, hobserves⟩ :=
    write_undisturbed h hcurrent hfaults (emitted.map Emitted.dataPoint)
  have hgrows := @grows_write call state h (emitted.map Emitted.dataPoint)
  rw [hwrite] at hgrows
  obtain ⟨booked, hbook, hbooked, happends⟩ :=
    @mergeBookkeeping_undisturbed services call written hwritten hfaults emitted result.outcomes
  have hframe := @mergeBookkeeping_frame services call written emitted result.outcomes
  have hbookedGrows := @Grows.bookkeeping services call state call.epoch written hgrows emitted
    result.outcomes
  rw [hbook] at hframe hbookedGrows
  refine ⟨result, written, booked, hwrite, hbook, hbookedGrows, hbooked, ?_, ?_⟩
  · obtain ⟨rows, hrows, hkinds⟩ := happends
    rw [haudit] at hrows
    exact ⟨rows, hrows, hkinds⟩
  · rw [hframe.2]
    exact hobserves

/-- A merge of a current epoch without faults returns. -/
theorem mergeEmissions_undisturbed (h : Agrees state.mirror state.store)
    (hcurrent : state.Current call.epoch) (hfaults : call.faults = .none)
    (emitted : List Emitted) :
  ∃ state', state.mergeEmissions services call emitted = (.ok (), state')
    ∧ Merges call.epoch (emitted.map Emitted.dataPoint) state state'
  := by
  cases emitted with
  | nil => exact ⟨state, rfl, .refl h, hcurrent, ⟨[], (List.append_nil _).symm, nofun⟩, nofun⟩
  | cons signal emitted =>
      obtain ⟨result, written, booked, hwrite, hbook, hmerges⟩ :=
        @merges_written services call state (signal :: emitted) h hcurrent hfaults
      use booked
      rw [mergeEmissions, if_neg (by exact nofun), hwrite]
      exact ⟨hbook, hmerges⟩

/-- An inbox batch of a current epoch without faults is applied. -/
theorem applyInboxDataPoints_undisturbed (h : Agrees state.mirror state.store)
    (hcurrent : state.Current call.epoch) (hfaults : call.faults = .none)
    (dataPoints : List BaseDataPoint) :
  ∃ state', state.applyInboxDataPoints services call dataPoints = (.ok (), state')
    ∧ Merges call.epoch dataPoints state state'
  := by
  have hsame : (dataPoints.map (fun dp => (⟨none, dp⟩ : Emitted))).map Emitted.dataPoint
      = dataPoints := by
    rw [List.map_map]
    exact List.map_id dataPoints
  obtain ⟨result, written, booked, hwrite, hbook, hmerges⟩ :=
    @merges_written services call state (dataPoints.map (fun dp => (⟨none, dp⟩ : Emitted))) h
      hcurrent hfaults
  use booked
  rw [applyInboxDataPoints]
  simp only [hwrite, hbook, true_and]
  rw [hsame] at hmerges
  exact hmerges

end MergeState

end Orcastork
