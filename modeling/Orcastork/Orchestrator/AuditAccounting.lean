import Orcastork.Adapters.Memory.StoreHistory
import Orcastork.Library.TransitionSystem
import Orcastork.Orchestrator.ArchiveAgreement
import Orcastork.Orchestrator.AuditTrail
import Orcastork.Orchestrator.ChangeSets

/-!
# The trail accounts for every DataPoint

A merge is booked in one of three places: a row, the counter of its type's merges, or the
counter of its type's re-observations. The counters are appended as rows wherever the epoch is
released cleanly. So at the end of a run the rows of a type and the merges its coalesced rows
stand in for are as many as the DataPoints of the type that were presented, and a type that
audits every emission has one row for each identity that the run added (`audit_accounts`).
-/

namespace Orcastork

/-! ### The newcomers of a batch -/

/-- The DataPoints of a batch whose identity is not known when it is their turn. -/
def newcomers (known : List IdentityKey) : List BaseDataPoint → List BaseDataPoint
  | [] => []
  | dataPoint :: dataPoints =>
    if identityKey dataPoint ∈ known then
      newcomers known dataPoints
    else
      dataPoint :: newcomers (known ++ [identityKey dataPoint]) dataPoints

/-- What a merge finds each DataPoint of a batch to be. -/
def mergeKinds (known : List IdentityKey) : List BaseDataPoint → List MergeKind
  | [] => []
  | dataPoint :: dataPoints =>
    if identityKey dataPoint ∈ known then
      .updated :: mergeKinds known dataPoints
    else
      .added :: mergeKinds (known ++ [identityKey dataPoint]) dataPoints

theorem newcomers_append (known : List IdentityKey) (first second : List BaseDataPoint) :
  newcomers known (first ++ second)
    = newcomers known first
      ++ newcomers (known ++ (newcomers known first).map identityKey) second
  := by
  induction first generalizing known with
  | nil => simp [newcomers]
  | cons dataPoint first ih =>
      rw [List.cons_append, newcomers, newcomers]
      split
      · exact ih known
      · rw [ih, List.map_cons, List.cons_append, List.append_assoc]
        rfl

/-- A written batch puts the identities of its newcomers behind those of the entries. -/
theorem keys_foldl_mergeOne (n : Revision) (batch : List BaseDataPoint) (entries : Entries)
    (changed : Bool) :
  (batch.foldl (SessionState.mergeOne n) (entries, changed)).1.keys
    = entries.keys ++ (newcomers entries.keys batch).map identityKey
  := by
  induction batch generalizing entries changed with
  | nil => simp [newcomers]
  | cons dataPoint batch ih =>
      rw [List.foldl_cons, newcomers]
      cases hget : entries.get? (identityKey dataPoint) with
      | none =>
          have hnew : identityKey dataPoint ∉ entries.keys := Dict.get?_eq_none_iff.mp hget
          rw [SessionState.mergeOne_new hget, ih, Dict.keys_set_of_not_mem hnew, if_neg hnew,
            List.map_cons, List.append_assoc]
          rfl
      | some existing =>
          have hknown : identityKey dataPoint ∈ entries.keys := Dict.mem_keys_of_get? hget
          rw [if_pos hknown]
          rcases lt_or_ge existing.dataPoint.lastRetrieved dataPoint.lastRetrieved with hlt | hle
          · rw [SessionState.mergeOne_newer hget hlt, ih, Dict.keys_set_of_mem hknown]
          · rw [SessionState.mergeOne_not_newer hget hle, ih]

/-- The identities of an accepted batch's newcomers come behind those of the store. -/
theorem keys_write {state state' : SessionState} {batch : List BaseDataPoint} {epoch : Epoch}
    {revision : Revision} (hwrite : state.write batch epoch = .ok (revision, state')) :
  state'.entries.keys = state.entries.keys ++ (newcomers state.entries.keys batch).map identityKey
  := by
  rcases Nat.lt_or_ge epoch state.maxEpoch with hlt | hle
  · rw [SessionState.write_of_lt hlt] at hwrite
    cases hwrite
  · rw [SessionState.write_of_le hle rfl] at hwrite
    cases hwrite
    apply keys_foldl_mergeOne

/-- A resolution under way knows the entries' identities and those it has added. -/
structure Resolution.Knows (entries : MirrorEntries) (known : List IdentityKey)
    (resolution : Resolution) : Prop where
  known : ∀ key, key ∈ known ↔ key ∈ entries.keys ∨ key ∈ resolution.added.keys
  updated : ∀ key ∈ resolution.updated.keys, key ∈ entries.keys

/-- One DataPoint resolved is found added exactly if its identity is not known. -/
theorem Resolution.Knows.resolveOne {entries : MirrorEntries} {known : List IdentityKey}
    {resolution : Resolution} (h : resolution.Knows entries known) (dataPoint : BaseDataPoint) :
  ((SessionStateMirror.resolveOne entries resolution dataPoint).outcomes.map MergeResult.kind
      = resolution.outcomes.map MergeResult.kind ++ mergeKinds known [dataPoint])
    ∧ (SessionStateMirror.resolveOne entries resolution dataPoint).Knows entries
        (known ++ (newcomers known [dataPoint]).map identityKey)
  := by
  have hold : identityKey dataPoint ∈ known →
      mergeKinds known [dataPoint] = [.updated]
        ∧ known ++ (newcomers known [dataPoint]).map identityKey = known := by
    intro hknown
    rw [mergeKinds, newcomers, if_pos hknown, if_pos hknown]
    exact ⟨rfl, List.append_nil known⟩
  rw [SessionStateMirror.resolveOne]
  cases hadded : resolution.added.get? (identityKey dataPoint) with
  | some existing =>
      have hmem := Dict.mem_keys_of_get? hadded
      obtain ⟨hkinds, hsame⟩ := hold ((h.known _).mpr (Or.inr hmem))
      rw [hkinds, hsame]
      refine ⟨by simp, ?_, h.updated⟩
      intro key
      rw [h.known, Dict.keys_set_of_mem hmem]
  | none =>
      cases hupdated : resolution.updated.get? (identityKey dataPoint) with
      | some existing =>
          have hmem := Dict.mem_keys_of_get? hupdated
          obtain ⟨hkinds, hsame⟩ := hold ((h.known _).mpr (Or.inl (h.updated _ hmem)))
          rw [hkinds, hsame]
          refine ⟨by simp, h.known, ?_⟩
          intro key hkey
          rw [Dict.keys_set_of_mem hmem] at hkey
          exact h.updated key hkey
      | none =>
          cases hentry : entries.get? (identityKey dataPoint) with
          | some existing =>
              have hmem := Dict.mem_keys_of_get? hentry
              obtain ⟨hkinds, hsame⟩ := hold ((h.known _).mpr (Or.inl hmem))
              rw [hkinds, hsame]
              refine ⟨by simp, h.known, ?_⟩
              intro key hkey
              dsimp only at hkey
              split at hkey
              · obtain rfl | hkey := Dict.mem_keys_set.mp hkey
                · exact hmem
                · exact h.updated key hkey
              · exact h.updated key hkey
          | none =>
              have hentries := Dict.get?_eq_none_iff.mp hentry
              have hnew : identityKey dataPoint ∉ known := by
                rw [h.known, not_or]
                exact ⟨hentries, Dict.get?_eq_none_iff.mp hadded⟩
              rw [mergeKinds, newcomers, if_neg hnew, if_neg hnew]
              refine ⟨by simp [mergeKinds], ?_, h.updated⟩
              intro key
              rw [List.mem_append, h.known, Dict.keys_set_of_not_mem
                (Dict.get?_eq_none_iff.mp hadded), List.mem_append, or_assoc]
              rfl

/-- A batch is resolved to what its DataPoints are found to be. -/
theorem kinds_resolve (entries : MirrorEntries) (batch : List BaseDataPoint) :
  (SessionStateMirror.resolve entries batch).outcomes.map MergeResult.kind
    = mergeKinds entries.keys batch
  := by
  have hall : ∀ (known : List IdentityKey) (resolution : Resolution),
      resolution.Knows entries known →
      (batch.foldl (SessionStateMirror.resolveOne entries) resolution).outcomes.map
          MergeResult.kind
        = resolution.outcomes.map MergeResult.kind ++ mergeKinds known batch := by
    induction batch with
    | nil => exact fun known resolution _ => (List.append_nil _).symm
    | cons dataPoint batch ih =>
        intro known resolution h
        obtain ⟨hkinds, hknows⟩ := h.resolveOne dataPoint
        rw [List.foldl_cons, ih _ _ hknows, hkinds, List.append_assoc]
        apply congrArg (List.map MergeResult.kind resolution.outcomes ++ ·)
        by_cases hknown : identityKey dataPoint ∈ known
        · simp [mergeKinds, newcomers, hknown]
        · simp [mergeKinds, newcomers, hknown]
  apply hall entries.keys
  constructor
  · intro key
    rw [Dict.keys_empty]
    simp
  · intro key hkey
    rw [Dict.keys_empty] at hkey
    exact absurd hkey List.not_mem_nil

/-! ### Booking a batch -/

/-- The merges of a type that a counter holds. -/
def tallied (counter : Dict DataPointType ℕ) (type : DataPointType) : ℕ :=
  (counter.get? type).getD 0

theorem tallied_increment (counter : Dict DataPointType ℕ) (type type' : DataPointType) :
  tallied (increment counter type') type
    = tallied counter type + if type' = type then 1 else 0
  := by
  rw [tallied, tallied, increment, Dict.get?_set]
  by_cases h : type' = type
  · subst h
    rw [if_pos rfl, if_pos rfl, Option.getD_some]
  · rw [if_neg h, if_neg h, Nat.add_zero]

namespace AuditFormat

variable {format : AuditFormat} {type : DataPointType}

theorem rowsOf_append (kind : String) (rows rows' : List AuditLogEntry) :
  format.rowsOf kind type (rows ++ rows')
    = format.rowsOf kind type rows ++ format.rowsOf kind type rows'
  := List.filter_append ..

theorem added_append (rows rows' : List AuditLogEntry) :
  format.added type (rows ++ rows') = format.added type rows ++ format.added type rows'
  := rowsOf_append ..

theorem coalesced_append (rows rows' : List AuditLogEntry) :
  format.coalesced type (rows ++ rows') = format.coalesced type rows + format.coalesced type rows'
  := by
  rw [coalesced, coalesced, coalesced, rowsOf_append, List.map_append, List.sum_append]

/-- Rows of other kinds are not among those of a kind. -/
theorem rowsOf_eq_nil {kind : String} {rows : List AuditLogEntry}
    (h : ∀ row ∈ rows, row.kind ≠ kind) :
  format.rowsOf kind type rows = []
  := by
  apply List.filter_eq_nil_iff.mpr
  intro row hrow
  rw [decide_eq_true_eq]
  exact fun hkind => h row hrow hkind.1

end AuditFormat

section Booking

variable {services : AuditServices} {leaves : Leaves} {sealing : Sealing} {call : MergeCall}

/-- The row of a DataPoint tells of it. -/
theorem infoOf_dataPointAuditEntry (signal : Emitted) :
  services.format.infoOf (dataPointAuditEntry (services.merging leaves sealing) call signal)
    = services.info leaves signal.dataPoint
  := by
  rw [AuditFormat.infoOf, dataPointAuditEntry, AuditServices.merging]
  dsimp only
  rw [services.format.read_write]

theorem added_dataPointAuditEntry (signal : Emitted) (type : DataPointType) :
  services.format.added type [dataPointAuditEntry (services.merging leaves sealing) call signal]
    = if signal.dataPoint.type = type then
        [dataPointAuditEntry (services.merging leaves sealing) call signal]
      else
        []
  := by
  rw [AuditFormat.added, AuditFormat.rowsOf, List.filter_singleton, infoOf_dataPointAuditEntry]
  simp [dataPointAuditEntry, AuditServices.info]

/-- A booked merge moves one of the three tallies of its type. -/
theorem tally_book (books : Books) (signal : Emitted × MergeResult) (type : DataPointType) :
  (services.format.added type
        (books.book (services.merging leaves sealing) call signal).auditEntries).length
      + tallied (books.book (services.merging leaves sealing) call signal).coalescedAudits type
      + tallied (books.book (services.merging leaves sealing) call signal).reobservedAudits type
    = (services.format.added type books.auditEntries).length
      + tallied books.coalescedAudits type + tallied books.reobservedAudits type
      + if signal.1.dataPoint.type = type then 1 else 0
  := by
  obtain ⟨signal, outcome⟩ := signal
  have hframe : (books.book (services.merging leaves sealing) call (signal, outcome)).auditEntries
        = (books.bookAudit (services.merging leaves sealing) call signal outcome).auditEntries
      ∧ (books.book (services.merging leaves sealing) call (signal, outcome)).coalescedAudits
        = (books.bookAudit (services.merging leaves sealing) call signal outcome).coalescedAudits
      ∧ (books.book (services.merging leaves sealing) call (signal, outcome)).reobservedAudits
        = (books.bookAudit (services.merging leaves sealing) call signal
            outcome).reobservedAudits := by
    rw [Books.book]
    split
    · exact ⟨rfl, rfl, rfl⟩
    · exact ⟨rfl, rfl, rfl⟩
  rw [hframe.1, hframe.2.1, hframe.2.2, Books.bookAudit]
  split
  · simp only [tallied_increment]
    omega
  · split
    · simp only [tallied_increment]
      omega
    · rw [AuditFormat.added_append, List.length_append, added_dataPointAuditEntry]
      dsimp only
      split
      · rw [List.length_singleton]
        omega
      · rw [List.length_nil]
        omega

/-- A booked batch moves the tallies of a type by as many as it has of the type. -/
theorem tally_books (books : Books) (signals : List (Emitted × MergeResult))
    (type : DataPointType) :
  (services.format.added type (signals.foldl
        (Books.book (services.merging leaves sealing) call) books).auditEntries).length
      + tallied (signals.foldl
          (Books.book (services.merging leaves sealing) call) books).coalescedAudits type
      + tallied (signals.foldl
          (Books.book (services.merging leaves sealing) call) books).reobservedAudits type
    = (services.format.added type books.auditEntries).length
      + tallied books.coalescedAudits type + tallied books.reobservedAudits type
      + (signals.map (fun signal => signal.1.dataPoint)).countP (fun dp => dp.type = type)
  := by
  induction signals generalizing books with
  | nil => rfl
  | cons signal signals ih =>
      rw [List.foldl_cons, ih, tally_book, List.map_cons, List.countP_cons]
      simp only [decide_eq_true_eq]
      omega

/-- The rows of a type in a booked batch tell of its newcomers, if the type is audited. -/
theorem info_books (books : Books) (known : List IdentityKey)
    (signals : List (Emitted × MergeResult))
    (hkinds : signals.map (fun signal => signal.2.kind)
      = mergeKinds known (signals.map (fun signal => signal.1.dataPoint)))
    {type : DataPointType} (htype : (leaves.config type).auditEveryEmission = true) :
  (services.format.added type (signals.foldl
        (Books.book (services.merging leaves sealing) call) books).auditEntries).map
      services.format.infoOf
    = (services.format.added type books.auditEntries).map services.format.infoOf
      ++ ((newcomers known (signals.map (fun signal => signal.1.dataPoint))).filter
          (fun dp => dp.type = type)).map (services.info leaves)
  := by
  induction signals generalizing books known with
  | nil => simp [newcomers]
  | cons signal signals ih =>
      obtain ⟨signal, outcome⟩ := signal
      rw [List.map_cons, List.map_cons, mergeKinds] at hkinds
      rw [List.foldl_cons, List.map_cons, newcomers]
      by_cases hknown : identityKey signal.dataPoint ∈ known
      · rw [if_pos hknown, List.cons.injEq] at hkinds
        rw [if_pos hknown, ih _ known hkinds.2, auditEntries_book,
          if_neg (fun h => h.2 hkinds.1), List.append_nil]
      · rw [if_neg hknown, List.cons.injEq] at hkinds
        have hkind : outcome.kind ≠ .updated := by
          rw [hkinds.1]
          exact nofun
        rw [if_neg hknown, ih _ _ hkinds.2, auditEntries_book, AuditFormat.added_append,
          List.map_append, List.append_assoc]
        apply congrArg (List.map services.format.infoOf
          (services.format.added type books.auditEntries) ++ ·)
        by_cases hdp : signal.dataPoint.type = type
        · have haudits : (services.merging leaves sealing).leaves.auditsEveryEmission
              signal.dataPoint = true := by
            rw [Leaves.auditsEveryEmission, hdp]
            exact htype
          rw [if_pos ⟨haudits, hkind⟩, added_dataPointAuditEntry, if_pos hdp,
            List.filter_cons_of_pos (by simpa using hdp), List.map_singleton,
            infoOf_dataPointAuditEntry, List.map_cons]
          rfl
        · rw [List.filter_cons_of_neg (by simpa using hdp)]
          split
          · rw [added_dataPointAuditEntry, if_neg hdp]
            rfl
          · rfl

/-- A booked batch has no coalesced rows. -/
theorem coalesced_books (books : Books) (signals : List (Emitted × MergeResult))
    (type : DataPointType) :
  services.format.coalesced type (signals.foldl
      (Books.book (services.merging leaves sealing) call) books).auditEntries
    = services.format.coalesced type books.auditEntries
  := by
  induction signals generalizing books with
  | nil => rfl
  | cons signal signals ih =>
      obtain ⟨signal, outcome⟩ := signal
      rw [List.foldl_cons, ih, auditEntries_book, AuditFormat.coalesced_append]
      split
      · rw [Nat.add_eq_left, AuditFormat.coalesced, AuditFormat.rowsOf_eq_nil]
        · rfl
        · intro row hrow
          rw [List.mem_singleton.mp hrow]
          exact (by decide : "data_point_added" ≠ "data_points_coalesced")
      · rfl

end Booking

/-! ### Coalesced rows -/

/-- The count of a coalesced row is read back. -/
theorem AuditFormat.countOf_coalescedSummary (count : ℕ) (what : String) :
  AuditFormat.countOf (AuditServices.coalescedSummary count what) = count
  := by
  have htext : (AuditServices.coalescedSummary count what).toList
      = Nat.toDigits 10 count ++ ' ' :: what.toList := by
    rw [← Nat.toList_repr]
    simp only [AuditServices.coalescedSummary, String.toList_append, List.append_assoc]
    rfl
  rw [AuditFormat.countOf, htext, List.takeWhile_append_of_pos
    (fun c hc => Nat.isDigit_of_mem_toDigits (by decide) (by decide) hc),
    List.takeWhile_cons_of_neg (by decide), List.append_nil, Nat.ofDigitChars_ten_toDigits]

section Coalescing

variable {services : AuditServices} {call : MergeCall} {type : DataPointType}

theorem infoOf_coalescedEntry (what : String) (counted : DataPointType × ℕ) :
  services.format.infoOf (services.coalescedEntry call what counted)
    = ⟨counted.1, AuditServices.coalescedSummary counted.2 what⟩
  := by
  rw [AuditFormat.infoOf, AuditServices.coalescedEntry]
  dsimp only
  rw [services.format.read_write]

/-- The rows of a list of counted types stand in for the merges counted of a type. -/
theorem coalesced_map_coalescedEntry (what : String) (items : List (DataPointType × ℕ)) :
  services.format.coalesced type (items.map (services.coalescedEntry call what))
    = ((items.filter (fun item => item.1 = type)).map Prod.snd).sum
  := by
  induction items with
  | nil => rfl
  | cons counted items ih =>
      have hone : services.format.coalesced type [services.coalescedEntry call what counted]
          = if counted.1 = type then counted.2 else 0 := by
        rw [AuditFormat.coalesced, AuditFormat.rowsOf, List.filter_singleton,
          infoOf_coalescedEntry]
        by_cases htype : counted.1 = type
        · rw [if_pos htype]
          have hrow : decide ((services.coalescedEntry call what counted).kind
              = "data_points_coalesced" ∧ counted.1 = type) = true := by
            simp [AuditServices.coalescedEntry, htype]
          rw [hrow, cond_true, List.map_singleton, List.sum_singleton, infoOf_coalescedEntry,
            AuditFormat.countOf_coalescedSummary]
        · simp [htype]
      rw [List.map_cons, ← List.singleton_append, AuditFormat.coalesced_append, hone, ih]
      by_cases htype : counted.1 = type
      · rw [if_pos htype, List.filter_cons_of_pos (by simpa using htype), List.map_cons,
          List.sum_cons]
      · rw [if_neg htype, List.filter_cons_of_neg (by simpa using htype), Nat.zero_add]

/-- The coalesced rows of a counter stand in for the merges of a type that it holds. -/
theorem coalesced_coalescedEntries (counter : Dict DataPointType ℕ) (what : String) :
  services.format.coalesced type (services.coalescedEntries call counter what)
    = tallied counter type
  := by
  have hperm : (Paging.inOrder Prod.fst counter.items).Perm counter.items :=
    Paging.perm_inOrder Prod.fst counter.items
  rw [AuditServices.coalescedEntries, coalesced_map_coalescedEntry,
    ((hperm.filter _).map _).sum_nat, Dict.filter_key counter.nodup_keys, tallied, Dict.get?]
  cases Dict.lookup type counter.items with
  | none => rfl
  | some count => simp

/-- A coalesced row is not the row of an identity added. -/
theorem added_coalescedEntries (counter : Dict DataPointType ℕ) (what : String) :
  services.format.added type (services.coalescedEntries call counter what) = []
  := by
  apply AuditFormat.rowsOf_eq_nil
  intro row hrow
  obtain ⟨counted, _, rfl⟩ := List.mem_map.mp hrow
  exact (by decide : "data_points_coalesced" ≠ "data_point_added")

end Coalescing

/-! ### What a run keeps -/

/-- The identities a mirror and its store know are the same. -/
theorem Agrees.keys {mirror : SessionStateMirror} {state : SessionState} (h : Agrees mirror state) :
  mirror.entries.keys = state.entries.keys
  := by
  rw [h.entries, Dict.keys_map]

/-- A batch written through an agreeing mirror is found to be what the store makes of it. -/
theorem MergeState.kinds_write {call : MergeCall} {state state' : MergeState}
    {dataPoints : List BaseDataPoint} {result : MirrorWriteResult}
    (hagrees : Agrees state.mirror state.store)
    (h : state.write call dataPoints = (.ok result, state')) :
  result.outcomes.map MergeResult.kind = mergeKinds state.store.entries.keys dataPoints
  := by
  obtain ⟨⟨revision, hwrite⟩, -⟩ := write_eq_ok hagrees h
  rw [write] at h
  split at h
  · cases h
  · rw [(hagrees.write_ok hwrite).1] at h
    obtain ⟨hresult, -⟩ := Prod.mk.inj h
    cases hresult
    rw [kinds_resolve, hagrees.keys]

/-- What the rows a run appended to the trail of a session, and its counters, account for. -/
structure Accounts (services : AuditServices) (leaves : Leaves) (session : MergeState)
    (run : AuditedRun) (rows : List AuditLogEntry) : Prop where
  agrees : Agrees run.state.mirror run.state.store
  trail : run.state.audit.committed = session.audit.committed ++ rows
  keys : run.state.store.entries.keys
    = session.store.entries.keys
      ++ (newcomers session.store.entries.keys run.presented).map identityKey
  /-- A DataPoint presented is in a row, or in a coalesced row, or still in a counter. -/
  counted : ∀ type,
    (services.format.added type rows).length + services.format.coalesced type rows
        + tallied run.state.coalescedAudits type + tallied run.state.reobservedAudits type
      = run.presented.countP (fun dp => dp.type = type)
  added : ∀ type, (leaves.config type).auditEveryEmission = true →
    (services.format.added type rows).map services.format.infoOf
      = ((newcomers session.store.entries.keys run.presented).filter
          (fun dp => dp.type = type)).map (services.info leaves)
  /-- Past the flush the counters are at zero. -/
  settled : run.stage ≠ .gathering → run.stage ≠ .aggregating → ∀ type,
    tallied run.state.coalescedAudits type = 0 ∧ tallied run.state.reobservedAudits type = 0

namespace Accounts

variable {services : AuditServices} {leaves : Leaves} {sealing : Sealing} {session : MergeState}
  {run run' : AuditedRun} {rows : List AuditLogEntry}

theorem start {sessionId : SessionId} {epoch : Epoch} (h : session.store.WellFormed) :
  Accounts services leaves session (.start sessionId epoch session) []
  := by
  constructor
  · exact agrees_rehydrate _ h
  · exact (List.append_nil _).symm
  · exact (List.append_nil _).symm
  · intro type
    rfl
  · intro type _
    rfl
  · intro hstage
    exact absurd rfl hstage

/-- A batch that is written and booked is accounted for. -/
theorem book (h : Accounts services leaves session run rows) (hstage : run.stage = .gathering)
    {now : Timestamp} {emitted : List Emitted} {written : MergeState}
    {result : MirrorWriteResult} {state' : MergeState}
    (hwrite : run.state.write (run.call now) (emitted.map Emitted.dataPoint)
      = (.ok result, written))
    (hbook : written.mergeBookkeeping (services.merging leaves sealing) (run.call now) emitted
      result.outcomes = (.ok (), state')) :
  ∃ rows', Accounts services leaves session
    { run with
      state := state'
      presented := run.presented ++ emitted.map Emitted.dataPoint } rows'
  := by
  have hkinds := MergeState.kinds_write h.agrees hwrite
  obtain ⟨⟨revision, hstore⟩, hagrees, hlength, hframe⟩ := MergeState.write_eq_ok h.agrees hwrite
  rw [List.length_map] at hlength
  obtain ⟨hmirror', hstore'⟩ := @MergeState.mergeBookkeeping_frame
    (services.merging leaves sealing) (run.call now) written emitted result.outcomes
  rw [hbook] at hmirror' hstore'
  simp only at hmirror' hstore'
  obtain ⟨haudit, hcoalesced, hreobserved⟩ := MergeState.audit_mergeBookkeeping rfl hbook
  have hbooks : written.audit = run.state.audit
      ∧ written.coalescedAudits = run.state.coalescedAudits
      ∧ written.reobservedAudits = run.state.reobservedAudits := by
    rw [hframe]
    exact ⟨rfl, rfl, rfl⟩
  rw [hbooks.1, hbooks.2.1, hbooks.2.2] at haudit
  rw [hbooks.2.1, hbooks.2.2] at hcoalesced hreobserved
  generalize hsignals : emitted.zip result.outcomes = signals at haudit hcoalesced hreobserved
  generalize hbooked : signals.foldl (Books.book (services.merging leaves sealing) (run.call now))
    ⟨run.state.coalescedAudits, run.state.reobservedAudits, [], []⟩ = books
    at haudit hcoalesced hreobserved
  -- The signals are the batch, each with what it was found to be.
  have hdataPoints : signals.map (fun signal => signal.1.dataPoint)
      = emitted.map Emitted.dataPoint := by
    have hzip : signals.map Prod.fst = emitted := by
      rw [← hsignals, List.map_fst_zip (Nat.le_of_eq hlength.symm)]
    rw [← hzip, List.map_map]
    rfl
  have hoffered : signals.map (fun signal => signal.2.kind)
      = mergeKinds run.state.store.entries.keys
          (signals.map (fun signal => signal.1.dataPoint)) := by
    have hzip : signals.map Prod.snd = result.outcomes := by
      rw [← hsignals, List.map_snd_zip (Nat.le_of_eq hlength)]
    rw [hdataPoints, ← hkinds, ← hzip, List.map_map]
    rfl
  have hknown := newcomers_append session.store.entries.keys run.presented
    (emitted.map Emitted.dataPoint)
  rw [← h.keys] at hknown
  use rows ++ books.auditEntries
  constructor
  · rw [hmirror', hstore']
    exact hagrees
  · rw [haudit, h.trail, List.append_assoc]
  · rw [hstore', keys_write hstore, hknown, List.map_append, ← List.append_assoc, h.keys]
  · intro type
    have hbefore := h.counted type
    have htally := @tally_books services leaves sealing (run.call now)
      ⟨run.state.coalescedAudits, run.state.reobservedAudits, [], []⟩ signals type
    have hrows := @coalesced_books services leaves sealing (run.call now)
      ⟨run.state.coalescedAudits, run.state.reobservedAudits, [], []⟩ signals type
    rw [hbooked] at hrows
    rw [hbooked, hdataPoints] at htally
    change services.format.coalesced type books.auditEntries = 0 at hrows
    change _ = 0 + tallied run.state.coalescedAudits type
      + tallied run.state.reobservedAudits type + _ at htally
    rw [AuditFormat.added_append, List.length_append, AuditFormat.coalesced_append, hrows,
      hcoalesced, hreobserved, List.countP_append]
    omega
  · intro type htype
    have hinfo := @info_books services leaves sealing (run.call now)
      ⟨run.state.coalescedAudits, run.state.reobservedAudits, [], []⟩
      run.state.store.entries.keys signals hoffered type htype
    rw [hbooked, hdataPoints] at hinfo
    rw [AuditFormat.added_append, List.map_append, h.added type htype, hinfo, hknown,
      List.filter_append, List.map_append]
    rfl
  · intro hgathering
    exact absurd hstage hgathering

/-- A merge that raises nothing is accounted for. -/
theorem mergeEmissions (h : Accounts services leaves session run rows)
    (hstage : run.stage = .gathering) {now : Timestamp} {emitted : List Emitted}
    {state' : MergeState}
    (hmerge : run.state.mergeEmissions (services.merging leaves sealing) (run.call now) emitted
      = (.ok (), state')) :
  ∃ rows', Accounts services leaves session
    { run with
      state := state'
      presented := run.presented ++ emitted.map Emitted.dataPoint } rows'
  := by
  rw [MergeState.mergeEmissions] at hmerge
  split at hmerge
  · rename_i hempty
    obtain rfl := List.isEmpty_iff.mp hempty
    obtain ⟨-, rfl⟩ := Prod.mk.inj hmerge
    rw [List.map_nil, List.append_nil]
    exact ⟨rows, h⟩
  · split at hmerge
    · cases hmerge
    · rename_i result written hwrite
      exact h.book hstage hwrite hmerge

/-- A delivered batch that raises nothing is accounted for. -/
theorem applyInboxDataPoints (h : Accounts services leaves session run rows)
    (hstage : run.stage = .gathering) {now : Timestamp} {dataPoints : List BaseDataPoint}
    {state' : MergeState}
    (hmerge : run.state.applyInboxDataPoints (services.merging leaves sealing) (run.call now)
      dataPoints = (.ok (), state')) :
  ∃ rows', Accounts services leaves session
    { run with
      state := state'
      presented := run.presented ++ dataPoints } rows'
  := by
  have hmap : (dataPoints.map (fun dp => (⟨none, dp⟩ : Emitted))).map Emitted.dataPoint
      = dataPoints := by
    rw [List.map_map]
    exact List.map_id dataPoints
  rw [MergeState.applyInboxDataPoints] at hmerge
  split at hmerge
  · cases hmerge
  · rename_i result written hwrite
    split at hmerge
    · rename_i booked hbook
      obtain ⟨-, rfl⟩ := Prod.mk.inj hmerge
      rw [← hmap]
      exact h.book hstage hwrite hbook
    · -- Nothing fails by itself, so a failure is a fencing signal, and that propagates.
      rename_i error booked hbook
      have hstale := MergeState.isStaleEpoch_mergeBookkeeping rfl rfl (congrArg Prod.fst hbook)
      rw [if_pos hstale] at hmerge
      cases hmerge

/-- Appending the counts moves the counters to rows. -/
theorem appendCoalescedAudits (h : Accounts services leaves session run rows) {now : Timestamp}
    {state' : MergeState}
    (happend : services.appendCoalescedAudits (run.call now) run.state = (.ok (), state'))
    (stage : AuditStage) :
  ∃ rows', Accounts services leaves session
    { run with
      stage := stage
      state := state' } rows'
  := by
  rw [AuditServices.appendCoalescedAudits] at happend
  generalize hcounted : services.coalescedEntries (run.call now) run.state.coalescedAudits "merged"
    ++ services.coalescedEntries (run.call now) run.state.reobservedAudits "re-observed" = counted
    at happend
  have hadded : ∀ type, services.format.added type counted = [] := by
    intro type
    rw [← hcounted, AuditFormat.added_append, added_coalescedEntries, added_coalescedEntries]
    rfl
  have hcoalesced : ∀ type, services.format.coalesced type counted
      = tallied run.state.coalescedAudits type + tallied run.state.reobservedAudits type := by
    intro type
    rw [← hcounted, AuditFormat.coalesced_append, coalesced_coalescedEntries,
      coalesced_coalescedEntries]
  simp only at happend
  split at happend
  · rename_i hempty
    obtain rfl := List.isEmpty_iff.mp hempty
    obtain ⟨-, rfl⟩ := Prod.mk.inj happend
    refine ⟨rows, h.agrees, h.trail, h.keys, h.counted, h.added, ?_⟩
    intro _ _ type
    have hnone : 0 = _ := hcoalesced type
    constructor
    · dsimp only
      omega
    · dsimp only
      omega
  · obtain ⟨hok, rfl⟩ := Prod.mk.inj happend
    rw [appendAuditEntries_eq rfl] at hok
    refine ⟨rows ++ counted, h.agrees, ?_, h.keys, ?_, ?_, ?_⟩
    · dsimp only
      rw [appendAuditEntries_eq rfl, AuditState.committed_appendMany hok, h.trail,
        List.append_assoc]
    · intro type
      dsimp only
      have hbefore := h.counted type
      rw [AuditFormat.added_append, hadded, List.append_nil, AuditFormat.coalesced_append,
        hcoalesced]
      change _ + 0 + 0 = _
      omega
    · intro type htype
      rw [AuditFormat.added_append, hadded, List.append_nil]
      exact h.added type htype
    · intro _ _ type
      exact ⟨rfl, rfl⟩

/-- A row of something else accounts for nothing. -/
theorem audit (h : Accounts services leaves session run rows) {entry : AuditLogEntry}
    (hkind : AuditedRun.ofDataPoints entry.kind = false) {audit : AuditState}
    (happend : run.state.audit.append { entry with epoch := run.epoch } = .ok audit) :
  ∃ rows', Accounts services leaves session
    { run with state := { run.state with audit := audit } } rows'
  := by
  have hother : entry.kind ≠ "data_point_added" ∧ entry.kind ≠ "data_points_coalesced" := by
    simpa [AuditedRun.ofDataPoints] using hkind
  have hadded : ∀ type, services.format.added type [{ entry with epoch := run.epoch }] = [] := by
    intro type
    apply AuditFormat.rowsOf_eq_nil
    intro row hrow
    rw [List.mem_singleton.mp hrow]
    exact hother.1
  have hcoalesced : ∀ type,
      services.format.coalesced type [{ entry with epoch := run.epoch }] = 0 := by
    intro type
    rw [AuditFormat.coalesced, AuditFormat.rowsOf_eq_nil]
    · rfl
    · intro row hrow
      rw [List.mem_singleton.mp hrow]
      exact hother.2
  rw [AuditState.append] at happend
  split at happend
  · cases happend
  · cases happend
    refine ⟨rows ++ [{ entry with epoch := run.epoch }], h.agrees, ?_, h.keys, ?_, ?_, h.settled⟩
    · dsimp only
      rw [h.trail, List.append_assoc]
    · intro type
      rw [AuditFormat.added_append, hadded, List.append_nil, AuditFormat.coalesced_append,
        hcoalesced, Nat.add_zero]
      exact h.counted type
    · intro type htype
      rw [AuditFormat.added_append, hadded, List.append_nil]
      exact h.added type htype

/-- An action that is taken leaves the run accounted for. -/
theorem step (h : Accounts services leaves session run rows) {action : AuditedAction}
    (hstep : run.step services leaves sealing action = some run') :
  ∃ rows', Accounts services leaves session run' rows'
  := by
  have hafter : ∀ {stage dataPoints result}, run.after stage dataPoints result = some run' →
      ∃ state', result = (.ok (), state')
        ∧ run' = { run with
            stage := stage
            state := state'
            presented := run.presented ++ dataPoints } := by
    intro stage dataPoints result hresult
    obtain ⟨result, state'⟩ := result
    cases result with
    | error error => cases hresult
    | ok =>
        cases hresult
        exact ⟨state', rfl, rfl⟩
  -- A stage that is moved through without an append leaves the counters as they are.
  have hmoved : ∀ stage, (stage ≠ .gathering → stage ≠ .aggregating →
        run.stage ≠ .gathering ∧ run.stage ≠ .aggregating) →
      Accounts services leaves session { run with stage := stage } rows := by
    intro stage hstage
    refine ⟨h.agrees, h.trail, h.keys, h.counted, h.added, ?_⟩
    intro hgathering haggregating
    obtain ⟨hgathering, haggregating⟩ := hstage hgathering haggregating
    exact h.settled hgathering haggregating
  cases action with
  | merge now emitted =>
      simp only [AuditedRun.step] at hstep
      split at hstep
      · rename_i hstage
        obtain ⟨state', hmerge, rfl⟩ := hafter hstep
        rw [← hstage]
        exact h.mergeEmissions hstage hmerge
      · cases hstep
  | inbox now dataPoints =>
      simp only [AuditedRun.step] at hstep
      split at hstep
      · rename_i hstage
        obtain ⟨state', hmerge, rfl⟩ := hafter hstep
        rw [← hstage]
        exact h.applyInboxDataPoints hstage hmerge
      · cases hstep
  | audit entry =>
      simp only [AuditedRun.step] at hstep
      split at hstep
      · cases hstep
      · rename_i hkind
        rw [Bool.not_eq_true, Bool.or_eq_false_iff] at hkind
        split at hstep
        · cases hstep
        · rename_i audit happend
          cases hstep
          exact h.audit hkind.1 happend
  | aggregate =>
      simp only [AuditedRun.step] at hstep
      split at hstep
      · cases hstep
        exact ⟨rows, hmoved .aggregating (fun _ haggregating => absurd rfl haggregating)⟩
      · cases hstep
  | park now =>
      simp only [AuditedRun.step] at hstep
      split at hstep
      · obtain ⟨state', happend, rfl⟩ := hafter hstep
        rw [List.append_nil]
        exact h.appendCoalescedAudits happend .parked
      · cases hstep
  | flush now =>
      simp only [AuditedRun.step] at hstep
      split at hstep
      · obtain ⟨state', happend, rfl⟩ := hafter hstep
        rw [List.append_nil]
        exact h.appendCoalescedAudits happend .flushed
      · cases hstep
  | redrive =>
      simp only [AuditedRun.step] at hstep
      split at hstep
      · cases hstep
        exact ⟨rows, hmoved .gathering (fun hgathering => absurd rfl hgathering)⟩
      · cases hstep
  | complete =>
      simp only [AuditedRun.step] at hstep
      split at hstep
      · rename_i hstage
        cases hstep
        refine ⟨rows, hmoved .completed (fun _ _ => ?_)⟩
        rw [hstage]
        decide
      · cases hstep

end Accounts

/-! ### The trail of a run -/

/-- The newcomers of a batch are of the batch, in its order. -/
theorem sublist_newcomers (known : List IdentityKey) (batch : List BaseDataPoint) :
  (newcomers known batch).Sublist batch
  := by
  induction batch generalizing known with
  | nil => exact .slnil
  | cons dataPoint batch ih =>
      rw [newcomers]
      split
      · exact (ih known).cons dataPoint
      · exact (ih _).cons_cons dataPoint

/-- The rows a run appended to the trail of a session account for what it presented, the new
DataPoints among it those of the identities it added. -/
structure TrailAccounts (services : AuditServices) (leaves : Leaves) (session : MergeState)
    (run : AuditedRun) (rows : List AuditLogEntry) (new : List BaseDataPoint) : Prop where
  trail : run.state.audit.replay = session.audit.replay ++ rows
  identities : run.state.store.snapshot.map identityKey
    = session.store.snapshot.map identityKey ++ new.map identityKey
  presented : new.Sublist run.presented
  /-- The rows of identities added of a type, and the merges that its coalesced rows stand in for,
  are as many as the DataPoints of the type that were presented. -/
  counted : ∀ type,
    (services.format.added type rows).length + services.format.coalesced type rows
      = run.presented.countP (fun dp => dp.type = type)
  /-- The rows of a type that audits every emission tell of the identities added, one each. -/
  added : ∀ type, (leaves.config type).auditEveryEmission = true →
    (services.format.added type rows).map services.format.infoOf
      = (new.filter (fun dp => dp.type = type)).map (services.info leaves)

/-- A run from any history of the store in which nothing fails, and that is parked or completed,
has appended rows that account for every DataPoint it presented. -/
theorem audit_accounts (services : AuditServices) (leaves : Leaves) (sealing : Sealing)
    {history : List ChangeHistory.Action} {world : ChangeHistory.World}
    (hhistory : TransitionSystem.run ChangeHistory.step ChangeHistory.initial history = some world)
    {session : MergeState} (hentries : session.store.entries = world.store.entries)
    (hrevision : session.store.revision = world.store.revision) {epoch : Epoch}
    {actions : List AuditedAction} {run : AuditedRun}
    (hrun : TransitionSystem.run (AuditedRun.step services leaves sealing)
      (.start sealing.sessionId epoch session) actions = some run)
    (hend : run.stage = .parked ∨ run.stage = .completed) :
  ∃ rows new, TrailAccounts services leaves session run rows new
  := by
  have hworld := TransitionSystem.run_invariant
    (fun _ _ _ h hstep => ChangeHistory.invariant_step h hstep) ChangeHistory.invariant_initial
    hhistory
  have hwellFormed : session.store.WellFormed := by
    have h := hworld.wellFormed
    rw [SessionState.WellFormed] at h ⊢
    rw [hentries, hrevision]
    exact h
  obtain ⟨rows, h⟩ : ∃ rows, Accounts services leaves session run rows := by
    apply TransitionSystem.run_invariant _ ⟨[], Accounts.start hwellFormed⟩ hrun
    rintro run action run' ⟨rows, h⟩ hstep
    exact h.step hstep
  have hpast : run.stage ≠ .gathering ∧ run.stage ≠ .aggregating := by
    rcases hend with hstage | hstage
    · rw [hstage]
      decide
    · rw [hstage]
      decide
  use rows, newcomers session.store.entries.keys run.presented
  constructor
  · exact h.trail
  · rw [SessionState.identityKey_snapshot h.agrees.wellFormed,
      SessionState.identityKey_snapshot hwellFormed, h.keys]
  · apply sublist_newcomers
  · intro type
    obtain ⟨hcoalesced, hreobserved⟩ := h.settled hpast.1 hpast.2 type
    rw [← h.counted type, hcoalesced, hreobserved, Nat.add_zero]
  · exact h.added

/-- Services that audit a text as it is. -/
def textAuditServices : AuditServices where
  format := .fields
  auditSummary := fun _ => none
  cipher := none
  str := fun value =>
    match value with
    | .str text => text
    | _ => ""

/-- Leaves of texts, ticks among them, which are only counted. -/
def countedLeaves : Leaves where
  config := fun type => ⟨false, false, !decide (type = "tick")⟩
  dump := fun _ value => value
  parse := fun _ value => .ok value

/-- A run that goes on after its first flush: a note is observed once more, another is new. -/
def countedActions : List AuditedAction :=
  [.merge 0 [⟨none, textDataPoint "note" "a" 0⟩, ⟨none, textDataPoint "tick" "t" 0⟩],
    .aggregate,
    .flush 1,
    .redrive,
    .inbox 2 [textDataPoint "note" "a" 2, textDataPoint "note" "b" 2],
    .aggregate,
    .flush 3,
    .complete]

theorem audit_accounts_texts :
  ∃ run rows new,
    TransitionSystem.run (AuditedRun.step textAuditServices countedLeaves textServices.sealing)
        (.start textServices.sealing.sessionId 1 (Recording.initial "s").state) countedActions
      = some run
      ∧ run.presented.length = 4
      ∧ TrailAccounts textAuditServices countedLeaves (Recording.initial "s").state run rows new
  := by
  obtain ⟨run, hrun, hend, hpresented⟩ : ∃ run,
      TransitionSystem.run (AuditedRun.step textAuditServices countedLeaves textServices.sealing)
          (.start textServices.sealing.sessionId 1 (Recording.initial "s").state) countedActions
        = some run
      ∧ run.stage = .completed ∧ run.presented.length = 4 := ⟨_, rfl, rfl, rfl⟩
  have hhistory : TransitionSystem.run ChangeHistory.step ChangeHistory.initial []
      = some ChangeHistory.initial := rfl
  obtain ⟨rows, new, h⟩ := audit_accounts textAuditServices countedLeaves textServices.sealing
    hhistory rfl rfl hrun (Or.inr hend)
  exact ⟨run, rows, new, hrun, hpresented, h⟩

end Orcastork
