import Orcastork.DataPoints.Base

/-!
# The in-memory inbox

`InMemoryInbox` keeps one `InboxState` for every session; the operations are given on it. An
appended entry stays until it is acked or quarantined. `consume` claims entries that were
never delivered, `reclaim` presents claimed ones again; neither is fenced.

Messages are held in their wire form and parsed at every delivery. Parsing is a parameter:
it rests on the JSON library and on the leaves registered in the process.
-/

namespace Orcastork

/-- What becomes of a wire payload that is parsed. -/
inductive Decoded where
  | dataPoint (dataPoint : BaseDataPoint)
  /-- The bytes are no JSON. -/
  | malformed (error : String)
  /-- The JSON is no DataPoint of a registered leaf: `parse_data_point` raises. -/
  | rejected (error : OrchestrationError)

/-- The parser of wire payloads. -/
abbrev Decoder := String → Decoded

/-- A message, in its wire form. -/
structure Message where
  entryId : ℕ
  payload : String
  deliveryCount : ℕ
  claimed : Bool
  deriving DecidableEq, Repr

/-- What `consume` and `reclaim` deliver. -/
inductive DeliveredInboxEntry where
  | entry (entryId : ℕ) (dataPoint : BaseDataPoint) (deliveryCount : ℕ)
  | poison (entryId : ℕ) (error : String) (deliveryCount : ℕ) (rawPayload : String)

/-- A quarantined entry. -/
structure QuarantinedEntry where
  entryId : ℕ
  reason : String
  deliveryCount : ℕ
  rawPayload : String
  deriving DecidableEq, Repr

/-- What the inbox keeps for one session. -/
structure InboxState where
  messages : List Message
  quarantined : List QuarantinedEntry
  maxEpoch : Epoch
  /-- The id of the next entry; the source draws a fresh uuid. -/
  nextId : ℕ
  deriving DecidableEq, Repr

namespace InboxState

/-- The inbox of a session nothing was delivered to. -/
def initial : InboxState := ⟨[], [], 0, 0⟩

/-- `_guard_epoch`. -/
def guardEpoch (state : InboxState) (epoch : Epoch) : Except OrchestrationError InboxState :=
  if epoch < state.maxEpoch then
    .error (.staleEpoch s!"epoch {epoch} is stale (current {state.maxEpoch})")
  else
    .ok { state with maxEpoch := epoch }

/-- `append_serialized`: a message put last, and its id. -/
def append (state : InboxState) (payload : String) : ℕ × InboxState :=
  (state.nextId,
    { state with
      messages := state.messages ++ [⟨state.nextId, payload, 0, false⟩]
      nextId := state.nextId + 1 })

/-- `_to_entry`: a message parsed for delivery. -/
def toEntry (decode : Decoder) (message : Message) :
    Except OrchestrationError DeliveredInboxEntry :=
  match decode message.payload with
  | .dataPoint dataPoint => .ok (.entry message.entryId dataPoint message.deliveryCount)
  | .malformed error =>
    .ok (.poison message.entryId error message.deliveryCount message.payload)
  | .rejected error => .error error

/-- A message claimed and counted as delivered once more. -/
def claim (message : Message) : Message :=
  { message with claimed := true, deliveryCount := message.deliveryCount + 1 }

/-- The loop of `consume`: messages never delivered are claimed in order, up to a limit. A
message that cannot be parsed ends the loop, claimed. -/
def consumeLoop (decode : Decoder) :
    Option ℕ → List Message →
      Except OrchestrationError (List DeliveredInboxEntry) × List Message
  | _, [] => (.ok [], [])
  | limit, message :: messages =>
    if limit = some 0 then
      (.ok [], message :: messages)
    else if message.claimed then
      let (delivered, messages) := consumeLoop decode limit messages
      (delivered, message :: messages)
    else
      match toEntry decode (claim message) with
      | .error error => (.error error, claim message :: messages)
      | .ok entry =>
        let (delivered, messages) := consumeLoop decode (limit.map (· - 1)) messages
        (delivered.map (entry :: ·), claim message :: messages)

/-- `consume`. -/
def consume (decode : Decoder) (state : InboxState) (maxEntries : Option ℕ) :
    Except OrchestrationError (List DeliveredInboxEntry) × InboxState :=
  let (delivered, messages) := consumeLoop decode maxEntries state.messages
  (delivered, { state with messages := messages })

/-- A message counted as delivered once more. -/
def redeliver (message : Message) : Message :=
  { message with deliveryCount := message.deliveryCount + 1 }

/-- The loop of `reclaim`: claimed messages are presented again. -/
def reclaimLoop (decode : Decoder) :
    List Message → Except OrchestrationError (List DeliveredInboxEntry) × List Message
  | [] => (.ok [], [])
  | message :: messages =>
    if message.claimed then
      match toEntry decode (redeliver message) with
      | .error error => (.error error, redeliver message :: messages)
      | .ok entry =>
        let (delivered, messages) := reclaimLoop decode messages
        (delivered.map (entry :: ·), redeliver message :: messages)
    else
      let (delivered, messages) := reclaimLoop decode messages
      (delivered, message :: messages)

/-- `reclaim`. -/
def reclaim (decode : Decoder) (state : InboxState) :
    Except OrchestrationError (List DeliveredInboxEntry) × InboxState :=
  let (delivered, messages) := reclaimLoop decode state.messages
  (delivered, { state with messages := messages })

/-- The message with an id, if it is there and claimed. -/
def claimed? (state : InboxState) (entryId : ℕ) : Option Message :=
  (state.messages.find? (fun message => message.entryId = entryId)).filter Message.claimed

/-- The messages without the first one with an id. -/
def without (state : InboxState) (entryId : ℕ) : List Message :=
  state.messages.eraseP (fun message => message.entryId = entryId)

/-- `ack`: a claimed entry removed; any other is left. -/
def ack (state : InboxState) (entryId : ℕ) (epoch : Epoch) :
    Except OrchestrationError InboxState := do
  let state ← state.guardEpoch epoch
  match state.claimed? entryId with
  | none => return state
  | some _ => return { state with messages := state.without entryId }

/-- `quarantine`: a claimed entry removed for good and recorded; any other is left. -/
def quarantine (state : InboxState) (entryId : ℕ) (reason : String) (epoch : Epoch) :
    Except OrchestrationError InboxState := do
  let state ← state.guardEpoch epoch
  match state.claimed? entryId with
  | none => return state
  | some message =>
    return { state with
      messages := state.without entryId
      quarantined := state.quarantined
        ++ [⟨entryId, reason, message.deliveryCount, message.payload⟩] }

/-- `pending_count`. -/
def pendingCount (state : InboxState) : ℕ := state.messages.length

/-! ### What a delivery changes -/

/-- Consuming leaves the messages as they were exactly when it claims none: the limit is
zero, or there is none left to claim. -/
theorem consumeLoop_eq_iff {decode : Decoder} {limit : Option ℕ} {messages : List Message} :
  (consumeLoop decode limit messages).2 = messages
    ↔ limit = some 0 ∨ ∀ message ∈ messages, message.claimed = true
  := by
  induction messages generalizing limit with
  | nil => simp [consumeLoop]
  | cons message messages ih =>
      by_cases hlimit : limit = some 0
      · simp [consumeLoop, hlimit]
      · cases hclaimed : message.claimed with
        | true => simp [consumeLoop, hlimit, hclaimed, ih]
        | false =>
            have hne : claim message ≠ message := by
              intro heq
              rw [← heq] at hclaimed
              cases hclaimed
            cases hentry : toEntry decode (claim message) with
            | error error => simp [consumeLoop, hlimit, hclaimed, hentry, hne]
            | ok entry => simp [consumeLoop, hlimit, hclaimed, hentry, hne]

/-- Reclaiming leaves the messages as they were exactly when none is claimed. -/
theorem reclaimLoop_eq_iff {decode : Decoder} {messages : List Message} :
  (reclaimLoop decode messages).2 = messages
    ↔ ∀ message ∈ messages, message.claimed = false
  := by
  induction messages with
  | nil => simp [reclaimLoop]
  | cons message messages ih =>
      cases hclaimed : message.claimed with
      | true =>
          have hne : redeliver message ≠ message := by
            intro heq
            have hcount := congrArg Message.deliveryCount heq
            simp [redeliver] at hcount
          cases hentry : toEntry decode (redeliver message) with
          | error error => simp [reclaimLoop, hclaimed, hentry, hne]
          | ok entry => simp [reclaimLoop, hclaimed, hentry, hne]
      | false => simp [reclaimLoop, hclaimed, ih]

/-! ### What a call leaves of the inbox -/

variable {state state' : InboxState} {epoch : Epoch} {entryId : ℕ}

/-- A later state of the inbox to which nothing was appended. -/
def Later (state state' : InboxState) : Prop :=
  state'.nextId = state.nextId ∧ (state.messages = [] → state'.messages = [])

theorem later_consume (decode : Decoder) (maxEntries : Option ℕ) :
  state.Later (state.consume decode maxEntries).2
  := by
  use rfl
  intro hempty
  simp [consume, hempty, consumeLoop]

theorem later_reclaim (decode : Decoder) :
  state.Later (state.reclaim decode).2
  := by
  use rfl
  intro hempty
  simp [reclaim, hempty, reclaimLoop]

theorem later_ack (h : state.ack entryId epoch = .ok state') :
  state.Later state'
  := by
  rw [ack, guardEpoch] at h
  split at h
  · cases h
  · simp only [bind, Except.bind, pure, Except.pure] at h
    split at h
    · cases h
      use rfl, id
    · cases h
      use rfl
      intro hempty
      simp [without, hempty]

theorem later_quarantine {reason : String} (h : state.quarantine entryId reason epoch = .ok state') :
  state.Later state'
  := by
  rw [quarantine, guardEpoch] at h
  split at h
  · cases h
  · simp only [bind, Except.bind, pure, Except.pure] at h
    split at h
    · cases h
      use rfl, id
    · cases h
      use rfl
      intro hempty
      simp [without, hempty]

end InboxState

end Orcastork
