import Orcastork.Adapters.Memory.AuditSink
import Orcastork.Archive.Sealing
import Orcastork.Orchestrator.MirrorSimulation

/-!
# Merging a batch

Everything that reaches the DataPoints of a session is merged in batches: the seed, what
operators emit, and what the inbox delivers. A batch is written through the mirror, one
store apply for the whole batch; then each DataPoint of it is audited or counted, and
archived unless it is ephemeral. The bookkeeping of an inbox batch that fails is absorbed,
unless it failed by fencing.

A port call may raise where its backend would not have; which one does, and what it leaves
behind, is an argument of the merge (`MergeFaults`). An undeclared emission is only logged,
so the check for it is left out.
-/

namespace Orcastork

/-- `_Emitted`: a DataPoint with the operator that emitted it. One of the seed or the inbox
has none. -/
structure Emitted where
  operatorId : Option OperatorId
  dataPoint : BaseDataPoint

/-- What an orchestrator merges with: its leaves, the sealing of its archive, and what an
audit row says of a DataPoint and its operator. -/
structure MergeServices where
  leaves : Leaves
  sealing : Sealing
  auditDetail : BaseDataPoint → Option OperatorId → String

/-- The DataPoints that are archived. -/
def MergeServices.keeps (services : MergeServices) (dataPoint : BaseDataPoint) : Bool :=
  !services.leaves.isEphemeral dataPoint

/-- The port calls of a merge that raise. The store apply is atomic; an append may leave its
backend in any state. -/
structure MergeFaults where
  apply : Option OrchestrationError
  audit : Option (OrchestrationError × AuditState)
  archive : Option (OrchestrationError × ArchiveState)

/-- No port call raises by itself. -/
def MergeFaults.none : MergeFaults := ⟨.none, .none, .none⟩

/-- One merge: the epoch it writes with, the time of the clock, and its faults. -/
structure MergeCall where
  epoch : Epoch
  now : Timestamp
  faults : MergeFaults

/-- What a merge reads and changes. -/
structure MergeState where
  mirror : SessionStateMirror
  store : SessionState
  audit : AuditState
  archive : ArchiveState
  /-- Merges of types that opted out of a row each, by type. -/
  coalescedAudits : Dict DataPointType ℕ
  /-- Merges of known identities, by type. -/
  reobservedAudits : Dict DataPointType ℕ

/-- The counters and the rows that bookkeeping collects before it appends any. -/
structure Books where
  coalescedAudits : Dict DataPointType ℕ
  reobservedAudits : Dict DataPointType ℕ
  auditEntries : List AuditLogEntry
  archiveEntries : List ArchivedDataPoint

/-- `counter[type] += 1`. -/
def increment (counter : Dict DataPointType ℕ) (type : DataPointType) :
    Dict DataPointType ℕ :=
  counter.set type ((counter.get? type).getD 0 + 1)

/-- `_data_point_audit_entry`. -/
def dataPointAuditEntry (services : MergeServices) (call : MergeCall) (signal : Emitted) :
    AuditLogEntry where
  epoch := call.epoch
  timestamp := call.now
  kind := "data_point_added"
  detail := services.auditDetail signal.dataPoint signal.operatorId

namespace Books

/-- A merge counted or given a row of its own: a type that opted out and a known identity
are only counted. -/
def bookAudit (services : MergeServices) (call : MergeCall) (books : Books)
    (signal : Emitted) (outcome : MergeResult) : Books :=
  if ¬services.leaves.auditsEveryEmission signal.dataPoint then
    { books with
      coalescedAudits := increment books.coalescedAudits signal.dataPoint.type }
  else if outcome.kind = .updated then
    { books with
      reobservedAudits := increment books.reobservedAudits signal.dataPoint.type }
  else
    { books with
      auditEntries := books.auditEntries ++ [dataPointAuditEntry services call signal] }

/-- One merge booked: audited, and archived unless its DataPoint is ephemeral. -/
def book (services : MergeServices) (call : MergeCall) (books : Books) :
    Emitted × MergeResult → Books
  | (signal, outcome) =>
    let books := books.bookAudit services call signal outcome
    if services.keeps signal.dataPoint then
      { books with
        archiveEntries := books.archiveEntries
          ++ [.fromDataPoint services.leaves signal.dataPoint call.epoch] }
    else
      books

end Books

/-- `_append_audit_entries`: `append` for one entry, `append_many` for more. -/
def appendAuditEntries (call : MergeCall) (audit : AuditState) :
    List AuditLogEntry → Except OrchestrationError Unit × AuditState
  | [] => (.ok (), audit)
  | entry :: entries =>
    match call.faults.audit with
    | some (error, audit) => (.error error, audit)
    | none =>
      if entries.isEmpty then
        match audit.append entry with
        | .error error => (.error error, audit)
        | .ok audit => (.ok (), audit)
      else
        audit.appendMany (entry :: entries)

/-- `_archive_entries`: `archive` for one entry, `archive_many` for more. -/
def archiveEntries (services : MergeServices) (call : MergeCall) (archive : ArchiveState) :
    List ArchivedDataPoint → Except OrchestrationError Unit × ArchiveState
  | [] => (.ok (), archive)
  | entry :: entries =>
    match call.faults.archive with
    | some (error, archive) => (.error error, archive)
    | none =>
      if entries.isEmpty then
        match archive.archive services.sealing.sealer entry with
        | .error error => (.error error, archive)
        | .ok archive => (.ok (), archive)
      else
        archive.archiveMany services.sealing.sealer (entry :: entries)

namespace MergeState

/-- The write through the mirror. -/
def write (call : MergeCall) (state : MergeState) (dataPoints : List BaseDataPoint) :
    Except OrchestrationError MirrorWriteResult × MergeState :=
  match call.faults.apply with
  | some error => (.error error, state)
  | none =>
    let (result, mirror, store) := state.mirror.write state.store dataPoints call.epoch
    (result, { state with mirror := mirror, store := store })

/-- `_merge_bookkeeping`: the counters are moved as the batch is booked, then the audit rows
are appended, then the archive entries. The outcomes are as many as the DataPoints
(`length_outcomes`), which the source asserts. -/
def mergeBookkeeping (services : MergeServices) (call : MergeCall) (state : MergeState)
    (emitted : List Emitted) (outcomes : List MergeResult) :
    Except OrchestrationError Unit × MergeState :=
  let books := (emitted.zip outcomes).foldl (Books.book services call)
    ⟨state.coalescedAudits, state.reobservedAudits, [], []⟩
  let (appended, audit) := appendAuditEntries call state.audit books.auditEntries
  let state :=
    { state with
      audit := audit
      coalescedAudits := books.coalescedAudits
      reobservedAudits := books.reobservedAudits }
  match appended with
  | .error error => (.error error, state)
  | .ok () =>
    let (archived, archive) :=
      archiveEntries services call state.archive books.archiveEntries
    (archived, { state with archive := archive })

/-- `_merge_emissions`: an empty batch is not written. -/
def mergeEmissions (services : MergeServices) (call : MergeCall) (state : MergeState)
    (emitted : List Emitted) : Except OrchestrationError Unit × MergeState :=
  if emitted.isEmpty then
    (.ok (), state)
  else
    match state.write call (emitted.map Emitted.dataPoint) with
    | (.error error, state) => (.error error, state)
    | (.ok result, state) => state.mergeBookkeeping services call emitted result.outcomes

/-- `_merge`. -/
def merge (services : MergeServices) (call : MergeCall) (state : MergeState)
    (dataPoints : List BaseDataPoint) (operatorId : Option OperatorId) :
    Except OrchestrationError Unit × MergeState :=
  state.mergeEmissions services call (dataPoints.map (fun dp => ⟨operatorId, dp⟩))

/-- `_apply_inbox_data_points`: only a failed store apply and fencing propagate. -/
def applyInboxDataPoints (services : MergeServices) (call : MergeCall) (state : MergeState)
    (dataPoints : List BaseDataPoint) : Except OrchestrationError Unit × MergeState :=
  let emitted := dataPoints.map (fun dp => (⟨none, dp⟩ : Emitted))
  match state.write call (emitted.map Emitted.dataPoint) with
  | (.error error, state) => (.error error, state)
  | (.ok result, state) =>
    match state.mergeBookkeeping services call emitted result.outcomes with
    | (.ok (), state) => (.ok (), state)
    | (.error error, state) =>
      if error.isStaleEpoch then (.error error, state) else (.ok (), state)

end MergeState

/-! ### What a merge writes -/

/-- A resolution has one outcome for each DataPoint. -/
theorem length_outcomes (entries : MirrorEntries) (dataPoints : List BaseDataPoint) :
  (SessionStateMirror.resolve entries dataPoints).outcomes.length = dataPoints.length
  := by
  have hone : ∀ resolution dataPoint,
      (SessionStateMirror.resolveOne entries resolution dataPoint).outcomes.length
        = resolution.outcomes.length + 1 := by
    intro resolution dataPoint
    rw [SessionStateMirror.resolveOne]
    split
    · simp
    · split
      · simp
      · split
        · simp
        · simp
  have hall : ∀ resolution,
      (dataPoints.foldl (SessionStateMirror.resolveOne entries) resolution).outcomes.length
        = resolution.outcomes.length + dataPoints.length := by
    induction dataPoints with
    | nil =>
        intro resolution
        rfl
    | cons dataPoint dataPoints ih =>
        intro resolution
        rw [List.foldl_cons, ih, hone, List.length_cons]
        omega
  rw [SessionStateMirror.resolve, hall]
  simp

/-- Booking a batch collects the documents of its DataPoints that are not ephemeral. -/
theorem archiveEntries_book (services : MergeServices) (call : MergeCall)
    (signals : List (Emitted × MergeResult)) (books : Books) :
  (signals.foldl (Books.book services call) books).archiveEntries
    = books.archiveEntries
      ++ ((signals.map (fun signal => signal.1.dataPoint)).filter services.keeps).map
        (fun dp => .fromDataPoint services.leaves dp call.epoch)
  := by
  induction signals generalizing books with
  | nil => simp
  | cons signal signals ih =>
      obtain ⟨signal, outcome⟩ := signal
      have haudit : (books.bookAudit services call signal outcome).archiveEntries
          = books.archiveEntries := by
        rw [Books.bookAudit]
        split
        · rfl
        · split
          · rfl
          · rfl
      rw [List.foldl_cons, ih, Books.book]
      by_cases h : services.keeps signal.dataPoint = true
      · simp [h, haudit]
      · simp [h, haudit]

/-- A merge is given a row if it found its DataPoint added and the type is audited. -/
theorem auditEntries_book (services : MergeServices) (call : MergeCall) (books : Books)
    (signal : Emitted) (outcome : MergeResult) :
  (books.book services call (signal, outcome)).auditEntries
    = books.auditEntries
      ++ if services.leaves.auditsEveryEmission signal.dataPoint ∧ outcome.kind ≠ .updated then
          [dataPointAuditEntry services call signal]
        else
          []
  := by
  have hframe : (books.book services call (signal, outcome)).auditEntries
      = (books.bookAudit services call signal outcome).auditEntries := by
    rw [Books.book]
    split
    · rfl
    · rfl
  rw [hframe, Books.bookAudit]
  by_cases haudits : services.leaves.auditsEveryEmission signal.dataPoint = true
  · rw [if_neg (not_not_intro haudits)]
    by_cases hkind : outcome.kind = .updated
    · rw [if_pos hkind, if_neg (fun h => h.2 hkind), List.append_nil]
    · rw [if_neg hkind, if_pos ⟨haudits, hkind⟩]
  · rw [if_pos haudits, if_neg (fun h => haudits h.1), List.append_nil]

/-- Archiving without faults is archiving the batch, whichever call is made. -/
theorem archiveEntries_eq {services : MergeServices} {call : MergeCall}
    (h : call.faults.archive = none) (archive : ArchiveState)
    (entries : List ArchivedDataPoint) :
  archiveEntries services call archive entries
    = archive.archiveMany services.sealing.sealer entries
  := by
  cases entries with
  | nil => rfl
  | cons entry entries =>
      rw [archiveEntries]
      simp only [h]
      cases entries with
      | nil => rfl
      | cons next entries => rfl

/-- Appending without faults is appending the batch, whichever call is made. -/
theorem appendAuditEntries_eq {call : MergeCall} (h : call.faults.audit = none)
    (audit : AuditState) (entries : List AuditLogEntry) :
  appendAuditEntries call audit entries = audit.appendMany entries
  := by
  cases entries with
  | nil => rfl
  | cons entry entries =>
      rw [appendAuditEntries]
      simp only [h]
      cases entries with
      | nil => rfl
      | cons next entries => rfl

namespace MergeState

variable {services : MergeServices} {call : MergeCall} {state state' : MergeState}

/-- Without faults bookkeeping fails by fencing only. -/
theorem isStaleEpoch_mergeBookkeeping (haudit : call.faults.audit = none)
    (harchive : call.faults.archive = none) {emitted : List Emitted}
    {outcomes : List MergeResult} {error : OrchestrationError}
    (h : (state.mergeBookkeeping services call emitted outcomes).1 = .error error) :
  error.isStaleEpoch = true
  := by
  rw [mergeBookkeeping] at h
  simp only [appendAuditEntries_eq haudit, archiveEntries_eq harchive] at h
  split at h
  · rename_i error' hfailed
    cases h
    exact AuditState.isStaleEpoch_appendMany hfailed
  · exact ArchiveState.isStaleEpoch_archiveMany h

/-- Bookkeeping touches the audit sink, the archive and the counters only. -/
theorem mergeBookkeeping_frame (emitted : List Emitted) (outcomes : List MergeResult) :
  (state.mergeBookkeeping services call emitted outcomes).2.mirror = state.mirror
    ∧ (state.mergeBookkeeping services call emitted outcomes).2.store = state.store
  := by
  rw [mergeBookkeeping]
  simp only
  split
  · exact ⟨rfl, rfl⟩
  · exact ⟨rfl, rfl⟩

/-- Bookkeeping that succeeds without faults has archived the batch. -/
theorem archive_mergeBookkeeping (hfault : call.faults.archive = none)
    {emitted : List Emitted} {outcomes : List MergeResult}
    (hlength : outcomes.length = emitted.length)
    (h : state.mergeBookkeeping services call emitted outcomes = (.ok (), state')) :
  state.archive.archiveMany services.sealing.sealer
      (((emitted.map Emitted.dataPoint).filter services.keeps).map
        (fun dp => .fromDataPoint services.leaves dp call.epoch))
    = (.ok (), state'.archive)
  := by
  have hsignals : (emitted.zip outcomes).map (fun signal => signal.1.dataPoint)
      = emitted.map Emitted.dataPoint := by
    have hzip : (emitted.zip outcomes).map Prod.fst = emitted :=
      List.map_fst_zip (Nat.le_of_eq hlength.symm)
    rw [← congrArg (List.map Emitted.dataPoint) hzip, List.map_map]
    rfl
  rw [mergeBookkeeping] at h
  simp only [archiveEntries_eq hfault, archiveEntries_book, hsignals, List.nil_append] at h
  split at h
  · cases h
  · simp only [Prod.mk.injEq] at h
    obtain ⟨hok, rfl⟩ := h
    rw [← hok]

/-- Bookkeeping that succeeds without faults has appended the rows it booked, and has moved the
counters. -/
theorem audit_mergeBookkeeping (hfault : call.faults.audit = none) {emitted : List Emitted}
    {outcomes : List MergeResult}
    (h : state.mergeBookkeeping services call emitted outcomes = (.ok (), state')) :
  let books := (emitted.zip outcomes).foldl (Books.book services call)
    ⟨state.coalescedAudits, state.reobservedAudits, [], []⟩
  state'.audit.committed = state.audit.committed ++ books.auditEntries
    ∧ state'.coalescedAudits = books.coalescedAudits
    ∧ state'.reobservedAudits = books.reobservedAudits
  := by
  intro books
  rw [mergeBookkeeping] at h
  simp only [appendAuditEntries_eq hfault] at h
  split at h
  · cases h
  · rename_i happended
    obtain ⟨-, rfl⟩ := Prod.mk.inj h
    exact ⟨AuditState.committed_appendMany happended, rfl, rfl⟩

/-- A batch that is written through an agreeing mirror is written to the store, and the
mirror agrees with it again. -/
theorem write_eq_ok {dataPoints : List BaseDataPoint} {result : MirrorWriteResult}
    (hagrees : Agrees state.mirror state.store)
    (h : state.write call dataPoints = (.ok result, state')) :
  (∃ revision, state.store.write dataPoints call.epoch = .ok (revision, state'.store))
    ∧ Agrees state'.mirror state'.store ∧ result.outcomes.length = dataPoints.length
    ∧ state' = { state with mirror := state'.mirror, store := state'.store }
  := by
  rw [write] at h
  split at h
  · cases h
  · cases hwrite : state.store.write dataPoints call.epoch with
    | error error =>
        rw [hagrees.write_error hwrite] at h
        cases h
    | ok written =>
        obtain ⟨revision, store⟩ := written
        obtain ⟨heq, hagrees'⟩ := hagrees.write_ok hwrite
        rw [heq] at h
        cases h
        exact ⟨⟨revision, rfl⟩, hagrees', length_outcomes _ _, rfl⟩

/-- A batch that the store rejects changes nothing. -/
theorem write_eq_error {dataPoints : List BaseDataPoint} {error : OrchestrationError}
    (hagrees : Agrees state.mirror state.store)
    (h : state.write call dataPoints = (.error error, state')) :
  state' = state
  := by
  rw [write] at h
  split at h
  · cases h
    rfl
  · cases hwrite : state.store.write dataPoints call.epoch with
    | error error =>
        rw [hagrees.write_error hwrite] at h
        cases h
        rfl
    | ok written =>
        obtain ⟨revision, store⟩ := written
        obtain ⟨heq, -⟩ := hagrees.write_ok hwrite
        rw [heq] at h
        cases h

/-- The store rejects a batch by fencing only. -/
theorem write_rejected {dataPoints : List BaseDataPoint} {error : OrchestrationError}
    (hagrees : Agrees state.mirror state.store)
    (h : state.write call dataPoints = (.error error, state')) :
  call.faults.apply = some error
    ∨ (error.isStaleEpoch = true ∧ call.epoch < state.store.maxEpoch)
  := by
  rw [write] at h
  split at h
  · rename_i fault hfault
    cases h
    apply Or.inl hfault
  · right
    rcases Nat.lt_or_ge call.epoch state.store.maxEpoch with hlt | hle
    · rw [hagrees.write_error (SessionState.write_of_lt hlt dataPoints)] at h
      cases h
      exact ⟨rfl, hlt⟩
    · obtain ⟨heq, -⟩ := hagrees.write_ok (SessionState.write_of_le hle rfl)
      rw [heq] at h
      cases h

/-- A batch that is written is not one whose apply was to raise. -/
theorem write_landed {dataPoints : List BaseDataPoint} {result : MirrorWriteResult}
    (h : state.write call dataPoints = (.ok result, state')) :
  call.faults.apply = none
  := by
  rw [write] at h
  split at h
  · cases h
  · assumption

end MergeState

/-! ### Merging without fencing -/

/-- No part of the session has accepted a higher epoch. -/
structure MergeState.Current (epoch : Epoch) (state : MergeState) : Prop where
  store : state.store.maxEpoch ≤ epoch
  audit : state.audit.maxEpoch ≤ epoch
  archive : state.archive.maxEpoch ≤ epoch

/-- No port call raises by fencing, and none that raises leaves a higher epoch behind. -/
structure MergeFaults.Unfenced (epoch : Epoch) (faults : MergeFaults) : Prop where
  apply : ∀ error, faults.apply = some error → error.isStaleEpoch = false
  audit : ∀ error left, faults.audit = some (error, left) →
    error.isStaleEpoch = false ∧ left.maxEpoch ≤ epoch
  archive : ∀ error left, faults.archive = some (error, left) →
    error.isStaleEpoch = false ∧ left.maxEpoch ≤ epoch

section

variable {services : MergeServices} {call : MergeCall}

/-- Booking a batch collects audit rows of the epoch of the merge. -/
theorem epoch_auditEntries_book {signals : List (Emitted × MergeResult)} {books : Books}
    (h : ∀ entry ∈ books.auditEntries, entry.epoch = call.epoch) :
  ∀ entry ∈ (signals.foldl (Books.book services call) books).auditEntries,
    entry.epoch = call.epoch
  := by
  induction signals generalizing books with
  | nil => exact h
  | cons signal signals ih =>
      obtain ⟨signal, outcome⟩ := signal
      have hbooked : (books.book services call (signal, outcome)).auditEntries
          = (books.bookAudit services call signal outcome).auditEntries := by
        rw [Books.book]
        split <;> rfl
      rw [List.foldl_cons]
      apply ih
      rw [hbooked, Books.bookAudit]
      split
      · apply h
      · split
        · apply h
        · intro entry hentry
          rcases List.mem_append.mp hentry with hentry | hentry
          · apply h entry hentry
          · rw [List.mem_singleton.mp hentry]
            rfl

/-- Booking a batch collects archive entries of the epoch of the merge. -/
theorem epoch_archiveEntries_book {signals : List (Emitted × MergeResult)} {books : Books}
    (h : ∀ entry ∈ books.archiveEntries, entry.epoch = call.epoch) :
  ∀ entry ∈ (signals.foldl (Books.book services call) books).archiveEntries,
    entry.epoch = call.epoch
  := by
  intro entry hentry
  rw [archiveEntries_book] at hentry
  rcases List.mem_append.mp hentry with hentry | hentry
  · apply h entry hentry
  · obtain ⟨dataPoint, _, rfl⟩ := List.mem_map.mp hentry
    rfl

theorem appendAuditEntries_unfenced (hfaults : call.faults.Unfenced call.epoch)
    {audit : AuditState} (h : audit.maxEpoch ≤ call.epoch) {entries : List AuditLogEntry}
    (hentries : ∀ entry ∈ entries, entry.epoch = call.epoch) :
  (appendAuditEntries call audit entries).2.maxEpoch ≤ call.epoch
    ∧ ∀ error, (appendAuditEntries call audit entries).1 = .error error →
      error.isStaleEpoch = false
  := by
  cases hfault : call.faults.audit with
  | none =>
      obtain ⟨hok, hle⟩ := AuditState.appendMany_of_le h hentries
      rw [appendAuditEntries_eq hfault, hok]
      use hle
      intro error herror
      cases herror
  | some fault =>
      obtain ⟨error, left⟩ := fault
      obtain ⟨hstale, hle⟩ := hfaults.audit error left hfault
      cases entries with
      | nil =>
          use h
          intro error herror
          cases herror
      | cons entry entries =>
          simp only [appendAuditEntries, hfault]
          use hle
          rintro _ ⟨⟩
          apply hstale

theorem archiveEntries_unfenced (hfaults : call.faults.Unfenced call.epoch)
    {archive : ArchiveState} (h : archive.maxEpoch ≤ call.epoch)
    {entries : List ArchivedDataPoint} (hentries : ∀ entry ∈ entries, entry.epoch = call.epoch) :
  (archiveEntries services call archive entries).2.maxEpoch ≤ call.epoch
    ∧ ∀ error, (archiveEntries services call archive entries).1 = .error error →
      error.isStaleEpoch = false
  := by
  cases entries with
  | nil =>
      use h
      intro error herror
      cases herror
  | cons entry entries =>
      cases hfault : call.faults.archive with
      | none =>
          rw [archiveEntries_eq hfault, ArchiveState.archiveMany_of_le (List.cons_ne_nil _ _)
            hentries h]
          use le_refl _
          intro error herror
          cases herror
      | some fault =>
          obtain ⟨error, left⟩ := fault
          obtain ⟨hstale, hle⟩ := hfaults.archive error left hfault
          simp only [archiveEntries, hfault]
          use hle
          rintro _ ⟨⟩
          apply hstale

namespace MergeState

variable {state : MergeState}

/-- Bookkeeping of a current epoch raises by no fencing of its own. -/
theorem mergeBookkeeping_unfenced (hfaults : call.faults.Unfenced call.epoch)
    (h : state.Current call.epoch) (emitted : List Emitted) (outcomes : List MergeResult) :
  (state.mergeBookkeeping services call emitted outcomes).2.Current call.epoch
    ∧ ∀ error, (state.mergeBookkeeping services call emitted outcomes).1 = .error error →
      error.isStaleEpoch = false
  := by
  rw [mergeBookkeeping]
  simp only
  obtain ⟨haudit, hstale⟩ := appendAuditEntries_unfenced hfaults h.audit
    (@epoch_auditEntries_book services call (emitted.zip outcomes)
      ⟨state.coalescedAudits, state.reobservedAudits, [], []⟩
      (fun _ hmem => nomatch hmem))
  obtain ⟨harchive, hfenced⟩ := @archiveEntries_unfenced services call hfaults state.archive
    h.archive _ (@epoch_archiveEntries_book services call (emitted.zip outcomes)
      ⟨state.coalescedAudits, state.reobservedAudits, [], []⟩
      (fun _ hmem => nomatch hmem))
  split
  · rename_i error herror
    refine ⟨⟨h.store, haudit, h.archive⟩, ?_⟩
    rintro _ ⟨⟩
    apply hstale error herror
  · exact ⟨⟨h.store, haudit, harchive⟩, hfenced⟩

end MergeState

end

end Orcastork
