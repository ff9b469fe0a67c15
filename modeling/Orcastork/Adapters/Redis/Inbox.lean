import Orcastork.Adapters.Memory.InboxCalls

/-!
# The Redis inbox

`RedisStreamsInbox` keeps for every session a stream with one consumer group, the watermark
of the epochs, a counter of acked entries and the quarantine records. The operations are given
on the keys of one session, which do not expire.

The ids Redis gives ascend, and nothing is deleted from the stream: an entry goes by the number
of entries before it. Every entry has its `data` field, for all are written by `append` or as a
raw payload under that field. Wakeups and the sliding of ttls leave the keys as they are.
-/

namespace Orcastork

/-- An entry of a stream. -/
structure StreamEntry where
  entryId : ℕ
  payload : String
  deriving DecidableEq, Repr

/-- An entry delivered to a consumer and not acked. -/
structure PendingEntry where
  entryId : ℕ
  timesDelivered : ℕ
  deriving DecidableEq, Repr

/-- A consumer group. -/
structure ConsumerGroup where
  /-- The last entry that was delivered. There is none behind the id `0`. -/
  lastDelivered : Option ℕ
  pending : List PendingEntry
  deriving DecidableEq, Repr

/-- The keys of one session: `inbox`, its group, `inbox_epoch`, `acked` and `quarantine`. -/
structure RedisInbox where
  stream : List StreamEntry
  group : Option ConsumerGroup
  inboxEpoch : Option Epoch
  acked : Option ℕ
  /-- The list under `quarantine`; the source keeps each record as JSON. -/
  records : List QuarantinedEntry
  deriving DecidableEq, Repr

/-! ### Commands on streams -/

namespace ConsumerGroup

/-- A group created at the id `0`. -/
def created : ConsumerGroup := ⟨none, []⟩

/-- The entries behind the last one delivered. -/
def undelivered (group : ConsumerGroup) (stream : List StreamEntry) : List StreamEntry :=
  stream.filter (fun entry => group.lastDelivered.all (· < entry.entryId))

/-- `XREADGROUP` from `>`, with an optional `COUNT`. -/
def xreadgroup (group : ConsumerGroup) (stream : List StreamEntry) (count : Option ℕ) :
    List StreamEntry × ConsumerGroup :=
  let delivered := InboxState.limited count (group.undelivered stream)
  (delivered,
    { lastDelivered := (delivered.getLast?.map StreamEntry.entryId).or group.lastDelivered
      pending := group.pending ++ delivered.map (fun entry => ⟨entry.entryId, 1⟩) })

/-- The `COUNT` of an `XAUTOCLAIM` that names none. -/
def autoclaimCount : ℕ := 100

/-- A pending entry delivered once more. -/
def deliverAgain (pending : PendingEntry) : PendingEntry :=
  { pending with timesDelivered := pending.timesDelivered + 1 }

/-- `XAUTOCLAIM` from the first pending entry on, whatever it idled. The cursor it also returns
is dropped by the caller. -/
def xautoclaim (group : ConsumerGroup) (stream : List StreamEntry) :
    List StreamEntry × ConsumerGroup :=
  let claimed := group.pending.take autoclaimCount
  (claimed.filterMap (fun pending => stream.find? (fun entry => entry.entryId = pending.entryId)),
    { group with
      pending := claimed.map deliverAgain ++ group.pending.drop autoclaimCount })

/-- `XPENDING` over a range of ids. -/
def xpendingRange (group : ConsumerGroup) (min max count : ℕ) : List PendingEntry :=
  (group.pending.filter (fun pending => min ≤ pending.entryId ∧ pending.entryId ≤ max)).take count

end ConsumerGroup

namespace RedisInbox

/-- No key of the session exists. -/
def initial : RedisInbox := ⟨[], none, none, none, []⟩

/-- `_ensure_group`: the group, created where there is none. -/
def ensureGroup (inbox : RedisInbox) : ConsumerGroup := inbox.group.getD .created

/-- `XADD`. -/
def xadd (inbox : RedisInbox) (payload : String) : ℕ × RedisInbox :=
  (inbox.stream.length,
    { inbox with stream := inbox.stream ++ [⟨inbox.stream.length, payload⟩] })

/-- `XACK`: whether it removed a pending entry. -/
def xack (inbox : RedisInbox) (entryId : ℕ) : Bool × RedisInbox :=
  match inbox.group with
  | none => (false, inbox)
  | some group =>
    if group.pending.any (fun pending => pending.entryId = entryId) then
      (true,
        { inbox with
          group := some { group with
            pending := group.pending.eraseP (fun pending => pending.entryId = entryId) } })
    else
      (false, inbox)

/-! ### The scripts -/

/-- The watermark raised to an epoch above it. -/
def raiseEpoch (inbox : RedisInbox) (epoch : Epoch) : RedisInbox :=
  if inbox.inboxEpoch.getD 0 < epoch then { inbox with inboxEpoch := some epoch } else inbox

/-- What `_ACK_SCRIPT` and `_QUARANTINE_SCRIPT` do: the epoch is guarded, the entry acked, and
where that removed it the removal is noted. Nothing is returned for a stale epoch. -/
def removeScript (inbox : RedisInbox) (epoch : Epoch) (entryId : ℕ)
    (note : RedisInbox → RedisInbox) : Option Bool × RedisInbox :=
  if epoch < inbox.inboxEpoch.getD 0 then
    (none, inbox)
  else
    let (acked, inbox) := (inbox.raiseEpoch epoch).xack entryId
    (some acked, if acked then note inbox else inbox)

/-- The acked entry counted. -/
def countAcked (inbox : RedisInbox) : RedisInbox :=
  { inbox with acked := some (inbox.acked.getD 0 + 1) }

/-- `_ACK_SCRIPT`. -/
def ackScript (inbox : RedisInbox) (epoch : Epoch) (entryId : ℕ) : Option Bool × RedisInbox :=
  inbox.removeScript epoch entryId countAcked

/-- `_QUARANTINE_SCRIPT`. -/
def quarantineScript (inbox : RedisInbox) (epoch : Epoch) (entryId : ℕ)
    (record : QuarantinedEntry) : Option Bool × RedisInbox :=
  inbox.removeScript epoch entryId (fun inbox =>
    { inbox.countAcked with records := inbox.records ++ [record] })

/-! ### The operations -/

/-- `_to_entry`: an entry parsed for delivery. -/
def toEntry (decode : Decoder) (entry : StreamEntry) (deliveryCount : ℕ) :
    Except OrchestrationError DeliveredInboxEntry :=
  match decode entry.payload with
  | .dataPoint dataPoint => .ok (.entry entry.entryId dataPoint deliveryCount)
  | .malformed error => .ok (.poison entry.entryId error deliveryCount entry.payload)
  | .rejected error => .error error

/-- `consume`. -/
def consume (decode : Decoder) (inbox : RedisInbox) (maxEntries : Option ℤ) :
    Except OrchestrationError (List DeliveredInboxEntry) × RedisInbox :=
  if maxEntries.any (· ≤ 0) then
    (.ok [], inbox)
  else
    let (delivered, group) :=
      inbox.ensureGroup.xreadgroup inbox.stream (maxEntries.map Int.toNat)
    (delivered.mapM (fun entry => toEntry decode entry 1), { inbox with group := some group })

/-- The delivery counts `reclaim` reads for the entries it claimed: those of the pending entries
from the first claimed one to the last. -/
def deliveryCounts (group : ConsumerGroup) (claimed : List StreamEntry) : List PendingEntry :=
  match claimed.head?, claimed.getLast? with
  | some first, some last => group.xpendingRange first.entryId last.entryId claimed.length
  | _, _ => []

/-- The count of an entry, or one where none was read. -/
def deliveryCount (counts : List PendingEntry) (entryId : ℕ) : ℕ :=
  match counts.find? (fun pending => pending.entryId = entryId) with
  | none => 1
  | some pending => pending.timesDelivered

/-- `reclaim`. -/
def reclaim (decode : Decoder) (inbox : RedisInbox) :
    Except OrchestrationError (List DeliveredInboxEntry) × RedisInbox :=
  let (claimed, group) := inbox.ensureGroup.xautoclaim inbox.stream
  let counts := deliveryCounts group claimed
  (claimed.mapM (fun entry => toEntry decode entry (deliveryCount counts entry.entryId)),
    { inbox with group := some group })

/-- What a removal raises where its epoch is stale. -/
def staleOrDone (sessionId : SessionId) (epoch : Epoch) (result : Option Bool) :
    Except OrchestrationError InboxReply :=
  match result with
  | none => .error (.staleEpoch s!"epoch {epoch} is stale for session {sessionId}")
  | some _ => .ok .done

/-- `ack`. -/
def ack (sessionId : SessionId) (inbox : RedisInbox) (entryId : ℕ) (epoch : Epoch) :
    Except OrchestrationError InboxReply × RedisInbox :=
  let (result, inbox) := inbox.ackScript epoch entryId
  (staleOrDone sessionId epoch result, inbox)

/-- The record `quarantine` prepares. An entry that is not in the stream has no payload in it;
its record is not pushed, since it is not pending either. -/
def quarantineRecord (inbox : RedisInbox) (entryId : ℕ) (reason : String) : QuarantinedEntry :=
  { entryId := entryId
    reason := reason
    deliveryCount :=
      match inbox.ensureGroup.xpendingRange entryId entryId 1 with
      | [] => 0
      | pending :: _ => pending.timesDelivered
    rawPayload :=
      match inbox.stream.find? (fun entry => entry.entryId = entryId) with
      | none => ""
      | some entry => entry.payload }

/-- `quarantine`. -/
def quarantine (sessionId : SessionId) (inbox : RedisInbox) (entryId : ℕ) (reason : String)
    (epoch : Epoch) : Except OrchestrationError InboxReply × RedisInbox :=
  let inbox := { inbox with group := some inbox.ensureGroup }
  let (result, inbox) :=
    inbox.quarantineScript epoch entryId (inbox.quarantineRecord entryId reason)
  (staleOrDone sessionId epoch result, inbox)

/-- `pending_count`. -/
def pendingCount (inbox : RedisInbox) : ℤ := inbox.stream.length - inbox.acked.getD 0

/-- A call on the inbox. -/
def perform (codec : InboxCodec) (sessionId : SessionId) (inbox : RedisInbox) :
    InboxCall → Except OrchestrationError InboxReply × RedisInbox
  | .append dataPoint =>
    let (entryId, inbox) := inbox.xadd (codec.dumps dataPoint)
    (.ok (.appended entryId), inbox)
  | .appendSerialized payload =>
    let (entryId, inbox) := inbox.xadd payload
    (.ok (.appended entryId), inbox)
  | .consume maxEntries =>
    let (delivered, inbox) := inbox.consume codec.decode maxEntries
    (delivered.map .delivered, inbox)
  | .reclaim =>
    let (delivered, inbox) := inbox.reclaim codec.decode
    (delivered.map .delivered, inbox)
  | .ack entryId epoch => inbox.ack sessionId entryId epoch
  | .quarantine entryId reason epoch => inbox.quarantine sessionId entryId reason epoch
  | .quarantined => (.ok (.quarantined inbox.records), inbox)
  | .pendingCount => (.ok (.count inbox.pendingCount), inbox)

end RedisInbox

end Orcastork
