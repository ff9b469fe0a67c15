import Mathlib.Algebra.GroupWithZero.Nat
import Mathlib.Data.String.Basic
import Orcastork.Library.Paging
import Orcastork.Library.Readable
import Orcastork.Orchestrator.Bookkeeping

/-!
# The audit trail

What the trail of a run says of the DataPoints it merged: a row for a merge that added an
identity, and one counted row for each type and reason that stood in for rows of its own. The
counts are kept on the orchestrator and appended before the epoch is released cleanly.

`MergeServices` leaves open what a row says. Here its fields are the type and the summary of the
DataPoint (`DataPointAuditInfo`), written so that they can be read back, and the summary is the
one the orchestrator writes: an override, or the value, sealed or redacted if it is PII.
-/

namespace Orcastork

/-! ### Rows -/

/-- `DataPointAuditInfo`. -/
structure DataPointAuditInfo where
  dataPointType : DataPointType
  summary : String
  deriving DecidableEq, Repr

/-- How the fields of a row of a DataPoint are held, so that they can be read back. -/
structure AuditFormat where
  write : Option OperatorId → DataPointAuditInfo → String
  read : String → Option OperatorId × DataPointAuditInfo
  read_write : ∀ operatorId info, read (write operatorId info) = (operatorId, info)

namespace AuditFormat

/-- A text with a mark before each letter and another at its end. -/
def quoted (text : String) : List Char := text.toList.flatMap (fun c => ['=', c]) ++ [';']

/-- The quoted text that letters begin with, and the letters behind it. -/
def unquoted : List Char → List Char × List Char
  | '=' :: c :: letters => ((unquoted letters).map (c :: ·) id)
  | _ :: letters => ([], letters)
  | [] => ([], [])

theorem unquoted_quoted (text : String) (letters : List Char) :
  unquoted (quoted text ++ letters) = (text.toList, letters)
  := by
  rw [quoted]
  induction text.toList with
  | nil => rfl
  | cons c rest ih =>
      rw [List.flatMap_cons, List.append_assoc, List.append_assoc]
      rw [List.append_assoc] at ih
      change (unquoted (rest.flatMap _ ++ _)).map _ _ = _
      rw [ih]
      rfl

/-- An operator, or that there is none, before the fields of a DataPoint. -/
def quotedOperator : Option OperatorId → List Char
  | none => ['-']
  | some operatorId => '+' :: quoted operatorId

def unquotedOperator : List Char → Option OperatorId × List Char
  | '+' :: letters => (unquoted letters).map (fun name => some (String.ofList name)) id
  | _ :: letters => (none, letters)
  | [] => (none, [])

theorem unquotedOperator_quotedOperator (operatorId : Option OperatorId) (letters : List Char) :
  unquotedOperator (quotedOperator operatorId ++ letters) = (operatorId, letters)
  := by
  cases operatorId with
  | none => rfl
  | some operatorId =>
      rw [quotedOperator, List.cons_append, unquotedOperator, unquoted_quoted, Prod.map_apply,
        String.ofList_toList]
      rfl

/-- The fields one after another, each quoted. -/
def fields : AuditFormat where
  write := fun operatorId info => String.ofList
    (quotedOperator operatorId ++ (quoted info.dataPointType ++ quoted info.summary))
  read := fun text =>
    let (operatorId, letters) := unquotedOperator text.toList
    let (type, letters) := unquoted letters
    (operatorId, ⟨String.ofList type, String.ofList (unquoted letters).1⟩)
  read_write := by
    intro operatorId info
    have hsummary : unquoted (quoted info.summary) = (info.summary.toList, []) := by
      rw [← unquoted_quoted info.summary [], List.append_nil]
    simp only [String.toList_ofList, unquotedOperator_quotedOperator, unquoted_quoted, hsummary,
      String.ofList_toList]

end AuditFormat

/-- The cipher a run resolved for its namespace. -/
inductive AuditCipher where
  /-- `NullCipher`, the identity. -/
  | null
  | sealing (encrypt : String → String)

/-- What an orchestrator audits a DataPoint with: `audit_summary` of its leaf, the cipher if one
was resolved, and `str` of a value. -/
structure AuditServices where
  format : AuditFormat
  auditSummary : BaseDataPoint → Option String
  cipher : Option AuditCipher
  str : Value → String

namespace AuditServices

variable (services : AuditServices) (leaves : Leaves)

/-- The summary `_data_point_audit_entry` writes. -/
def summary (dataPoint : BaseDataPoint) : String :=
  match services.auditSummary dataPoint with
  | some summary => summary
  | none =>
    if leaves.isPii dataPoint then
      match services.cipher with
      | some (.sealing encrypt) => encrypt (services.str dataPoint.value)
      | some .null | none => "<redacted>"
    else
      services.str dataPoint.value

/-- What the row of a DataPoint says. -/
def info (dataPoint : BaseDataPoint) : DataPointAuditInfo :=
  ⟨dataPoint.type, services.summary leaves dataPoint⟩

/-- The services of the merges of a run that audits with these. -/
def merging (sealing : Sealing) : MergeServices where
  leaves := leaves
  sealing := sealing
  auditDetail := fun dataPoint operatorId =>
    services.format.write operatorId (services.info leaves dataPoint)

/-! ### Coalesced rows -/

/-- The summary of a coalesced row. -/
def coalescedSummary (count : ℕ) (what : String) : String := s!"{count} {what}"

/-- The row of a counted type. -/
def coalescedEntry (call : MergeCall) (what : String) (counted : DataPointType × ℕ) :
    AuditLogEntry where
  epoch := call.epoch
  timestamp := call.now
  kind := "data_points_coalesced"
  detail := services.format.write none ⟨counted.1, coalescedSummary counted.2 what⟩

/-- The rows of a counter, by type. -/
def coalescedEntries (call : MergeCall) (counter : Dict DataPointType ℕ) (what : String) :
    List AuditLogEntry :=
  (Paging.inOrder Prod.fst counter.items).map (services.coalescedEntry call what)

/-- `_append_coalesced_audits`: the counters are cleared as their rows are appended. -/
def appendCoalescedAudits (call : MergeCall) (state : MergeState) :
    Except OrchestrationError Unit × MergeState :=
  let counted := services.coalescedEntries call state.coalescedAudits "merged"
    ++ services.coalescedEntries call state.reobservedAudits "re-observed"
  if counted.isEmpty then
    (.ok (), state)
  else
    let (appended, audit) := appendAuditEntries call state.audit counted
    (appended,
      { state with audit := audit, coalescedAudits := .empty, reobservedAudits := .empty })

end AuditServices

/-! ### Runs -/

/-- Where an audited run stands: merging, aggregating, past the flush, or at its end. -/
inductive AuditStage where
  | gathering
  | aggregating
  | flushed
  | parked
  | completed
  deriving DecidableEq, Repr

/-- A run, with the DataPoints it has presented to the mirror so far. -/
structure AuditedRun where
  epoch : Epoch
  stage : AuditStage
  state : MergeState
  presented : List BaseDataPoint

/-- What a run does, as far as its trail is concerned. The seed, the emissions of the gather loop
and those a deadline leaves queued are merged alike. -/
inductive AuditedAction where
  | merge (now : Timestamp) (emitted : List Emitted)
  | inbox (now : Timestamp) (dataPoints : List BaseDataPoint)
  /-- A row of something else: an operator run, a capability, the inbox, the session. -/
  | audit (entry : AuditLogEntry)
  | aggregate
  | park (now : Timestamp)
  | flush (now : Timestamp)
  /-- An entry landed since: gathering again. -/
  | redrive
  | complete

namespace AuditedRun

/-- A run of an epoch on a session, its mirror rehydrated and its counters at zero. -/
def start (sessionId : SessionId) (epoch : Epoch) (state : MergeState) : AuditedRun where
  epoch := epoch
  stage := .gathering
  state :=
    { state with
      mirror := (SessionStateMirror.initial sessionId).rehydrate state.store
      coalescedAudits := .empty
      reobservedAudits := .empty }
  presented := []

/-- A call of the run at the given time, nothing failing by itself. -/
def call (run : AuditedRun) (now : Timestamp) : MergeCall := ⟨run.epoch, now, .none⟩

/-- The run after something that raised nothing. -/
def after (run : AuditedRun) (stage : AuditStage) (dataPoints : List BaseDataPoint) :
    Except OrchestrationError Unit × MergeState → Option AuditedRun
  | (.ok (), state) =>
    some { run with stage := stage, state := state, presented := run.presented ++ dataPoints }
  | (.error _, _) => none

/-- The kinds of the rows about DataPoints. -/
def ofDataPoints (kind : String) : Bool :=
  kind == "data_point_added" || kind == "data_points_coalesced"

/-- One action; it is not taken where it would raise. -/
def step (services : AuditServices) (leaves : Leaves) (sealing : Sealing) (run : AuditedRun) :
    AuditedAction → Option AuditedRun
  | .merge now emitted =>
    if run.stage = .gathering then
      run.after .gathering (emitted.map Emitted.dataPoint)
        (run.state.mergeEmissions (services.merging leaves sealing) (run.call now) emitted)
    else
      none
  | .inbox now dataPoints =>
    if run.stage = .gathering then
      run.after .gathering dataPoints
        (run.state.applyInboxDataPoints (services.merging leaves sealing) (run.call now) dataPoints)
    else
      none
  | .audit entry =>
    if ofDataPoints entry.kind || run.stage == .completed then
      none
    else
      match run.state.audit.append { entry with epoch := run.epoch } with
      | .error _ => none
      | .ok audit => some { run with state := { run.state with audit := audit } }
  | .aggregate =>
    if run.stage = .gathering then
      some { run with stage := .aggregating }
    else
      none
  | .park now =>
    if run.stage = .gathering then
      run.after .parked [] (services.appendCoalescedAudits (run.call now) run.state)
    else
      none
  | .flush now =>
    if run.stage = .aggregating then
      run.after .flushed [] (services.appendCoalescedAudits (run.call now) run.state)
    else
      none
  | .redrive =>
    if run.stage = .flushed then
      some { run with stage := .gathering }
    else
      none
  | .complete =>
    if run.stage = .flushed then
      some { run with stage := .completed }
    else
      none

end AuditedRun

/-! ### Reading the trail -/

namespace AuditFormat

variable (format : AuditFormat)

/-- What a row says of a DataPoint. -/
def infoOf (row : AuditLogEntry) : DataPointAuditInfo := (format.read row.detail).2

/-- The rows of a kind about a type. -/
def rowsOf (kind : String) (type : DataPointType) (rows : List AuditLogEntry) :
    List AuditLogEntry :=
  rows.filter (fun row =>
    decide (row.kind = kind ∧ (format.infoOf row).dataPointType = type))

/-- The number a summary begins with. -/
def countOf (summary : String) : ℕ :=
  Nat.ofDigitChars 10 (summary.toList.takeWhile Char.isDigit) 0

/-- The merges that the coalesced rows about a type stand in for. -/
def coalesced (type : DataPointType) (rows : List AuditLogEntry) : ℕ :=
  ((format.rowsOf "data_points_coalesced" type rows).map (fun row =>
    countOf (format.infoOf row).summary)).sum

/-- The rows of the identities added of a type. -/
def added (type : DataPointType) (rows : List AuditLogEntry) : List AuditLogEntry :=
  format.rowsOf "data_point_added" type rows

end AuditFormat

end Orcastork
