import Orcastork.Library.Raising
import Orcastork.Adapters.Memory.InboxCalls
import Orcastork.Orchestrator.Bookkeeping

/-!
# Draining the inbox

`_drain_inbox` presents the delivered entries again, consumes the ones never delivered, and
quarantines the poison among them. The others are applied in one batch and then acked one by
one; where the batch cannot be applied, or holds a single entry, each is applied alone.

Which store applies and bookkeeping appends raise, and where the drain is fenced off, is an
argument of the drain (`DrainCall`). An ack and a quarantine raise by fencing only.
-/

namespace Orcastork

/-- `InboxEntry`: a delivered entry that could be parsed. -/
structure InboxEntry where
  entryId : ℕ
  dataPoint : BaseDataPoint
  deliveryCount : ℕ

/-- The entry that could be parsed, unless it is poison. -/
def DeliveredInboxEntry.valid? : DeliveredInboxEntry → Option InboxEntry
  | .entry entryId dataPoint deliveryCount => some ⟨entryId, dataPoint, deliveryCount⟩
  | .poison .. => none

/-- `[*reclaim(...), *consume(...)]`. -/
def InboxState.deliver (decode : Decoder) (inbox : InboxState) :
    Except OrchestrationError (List DeliveredInboxEntry) × InboxState :=
  match inbox.reclaim decode with
  | (.error error, inbox) => (.error error, inbox)
  | (.ok reclaimed, inbox) =>
    match inbox.consume decode none with
    | (.error error, inbox) => (.error error, inbox)
    | (.ok consumed, inbox) => (.ok (reclaimed ++ consumed), inbox)

/-- What a drain merges with, and what the audit row of a quarantine says of its entry, the
reason and the delivery count. -/
structure DrainServices extends MergeServices where
  quarantineDetail : ℕ → String → ℕ → String

/-- One attempt to apply DataPoints: the time of the clock, and the port calls that raise. -/
structure ApplyAttempt where
  now : Timestamp
  faults : MergeFaults

/-- One attempt to quarantine: the time of the clock, and the message of the fencing where the
quarantine or the audit append after it is fenced off. -/
structure QuarantineAttempt where
  now : Timestamp
  fenced : Option String
  auditFenced : Option (String × AuditState)

/-- A drain: the epoch it writes with, the delivery cap, and what becomes of its calls. -/
structure DrainCall where
  epoch : Epoch
  maxInboxDeliveries : ℤ
  /-- The apply of the whole batch. -/
  batch : ApplyAttempt
  /-- The apply of one entry alone, by its id. -/
  single : ℕ → ApplyAttempt
  /-- The acks that are fenced off. -/
  ackFenced : ℕ → Option String
  quarantine : ℕ → QuarantineAttempt

/-- What a drain reads and changes. -/
structure DrainState extends MergeState where
  inbox : InboxState

namespace DrainState

/-- `inbox.ack`. -/
def ack (call : DrainCall) (entryId : ℕ) : Raising OrchestrationError DrainState := fun state =>
  match call.ackFenced entryId with
  | some message => (.error (.staleEpoch message), state)
  | none =>
    match state.inbox.ack entryId call.epoch with
    | .error error => (.error error, state)
    | .ok inbox => (.ok (), { state with inbox := inbox })

/-- `inbox.quarantine`. -/
def quarantine (call : DrainCall) (entryId : ℕ) (reason : String) :
    Raising OrchestrationError DrainState := fun state =>
  match (call.quarantine entryId).fenced with
  | some message => (.error (.staleEpoch message), state)
  | none =>
    match state.inbox.quarantine entryId reason call.epoch with
    | .error error => (.error error, state)
    | .ok inbox => (.ok (), { state with inbox := inbox })

/-- The audit row of a quarantine. -/
def auditQuarantine (services : DrainServices) (call : DrainCall) (entryId : ℕ)
    (reason : String) (deliveryCount : ℕ) : Raising OrchestrationError DrainState := fun state =>
  match (call.quarantine entryId).auditFenced with
  | some (message, audit) => (.error (.staleEpoch message), { state with audit := audit })
  | none =>
    let row : AuditLogEntry :=
      { epoch := call.epoch
        timestamp := (call.quarantine entryId).now
        kind := "inbox_entry_quarantined"
        detail := services.quarantineDetail entryId reason deliveryCount }
    match state.audit.append row with
    | .error error => (.error error, state)
    | .ok audit => (.ok (), { state with audit := audit })

/-- `_quarantine_inbox_entry`. -/
def quarantineInboxEntry (services : DrainServices) (call : DrainCall) (entryId : ℕ)
    (reason : String) (deliveryCount : ℕ) : Raising OrchestrationError DrainState :=
  .andThen (quarantine call entryId reason)
    (auditQuarantine services call entryId reason deliveryCount)

/-- `_apply_inbox_data_points`. -/
def applyInboxDataPoints (services : DrainServices) (call : DrainCall) (attempt : ApplyAttempt)
    (dataPoints : List BaseDataPoint) : Raising OrchestrationError DrainState := fun state =>
  let (outcome, merged) := state.toMergeState.applyInboxDataPoints services.toMergeServices
    ⟨call.epoch, attempt.now, attempt.faults⟩ dataPoints
  (outcome, { state with toMergeState := merged })

/-- `_apply_inbox_entry`: an entry that cannot be applied is left for redelivery, up to the
delivery cap. -/
def applyInboxEntry (services : DrainServices) (call : DrainCall) (entry : InboxEntry) :
    Raising OrchestrationError DrainState := fun state =>
  match applyInboxDataPoints services call (call.single entry.entryId) [entry.dataPoint]
      state with
  | (.ok (), state) => ack call entry.entryId state
  | (.error error, state) =>
    if error.isStaleEpoch then
      (.error error, state)
    else if call.maxInboxDeliveries ≤ entry.deliveryCount then
      quarantineInboxEntry services call entry.entryId error.text entry.deliveryCount state
    else
      (.ok (), state)

/-- Poison is quarantined; the other entries are passed over. -/
def quarantinePoison (services : DrainServices) (call : DrainCall) :
    DeliveredInboxEntry → Raising OrchestrationError DrainState
  | .entry .. => .skip
  | .poison entryId error deliveryCount _ =>
    quarantineInboxEntry services call entryId error deliveryCount

/-- The entries that could be parsed, applied and acked. -/
def applyValid (services : DrainServices) (call : DrainCall) (valid : List InboxEntry) :
    Raising OrchestrationError DrainState := fun state =>
  if valid.length ≤ 1 then
    Raising.each (applyInboxEntry services call) valid state
  else
    match applyInboxDataPoints services call call.batch (valid.map InboxEntry.dataPoint)
        state with
    | (.ok (), state) => Raising.each (fun entry => ack call entry.entryId) valid state
    | (.error error, state) =>
      if error.isStaleEpoch then
        (.error error, state)
      else
        -- The apply is atomic, so nothing of the batch has landed.
        Raising.each (applyInboxEntry services call) valid state

/-- `_drain_inbox`, once the entries are delivered. -/
def drainEntries (services : DrainServices) (call : DrainCall)
    (entries : List DeliveredInboxEntry) : Raising OrchestrationError DrainState :=
  .andThen (.each (quarantinePoison services call) entries)
    (applyValid services call (entries.filterMap DeliveredInboxEntry.valid?))

/-- `_drain_inbox`. -/
def drainInbox (services : DrainServices) (decode : Decoder) (call : DrainCall) :
    Raising OrchestrationError DrainState := fun state =>
  match state.inbox.deliver decode with
  | (.error error, inbox) => (.error error, { state with inbox := inbox })
  | (.ok entries, inbox) => drainEntries services call entries { state with inbox := inbox }

end DrainState

end Orcastork
