import Orcastork.Adapters.Redis.Inbox

/-!
# The Redis inbox against the in-memory one

The same calls on both inboxes get the same replies, entries in the same order with the same
delivery counts, as long as every `reclaim` finds at most as many delivered entries pending as
one `XAUTOCLAIM` claims. The first `reclaim` that finds more is answered in part: the Redis
adapter drops the cursor and does not go on from it.

Payloads are JSON of registered leaves or no JSON at all. A payload that makes a pass raise
does so at other moments in the two inboxes.
-/

namespace Orcastork

open InboxState

/-- Two outcomes that are the same, up to the message of a `StaleEpochError`: that of the one
inbox names the watermark, that of the other the session. -/
inductive SameInboxOutcome :
    Except OrchestrationError InboxReply → Except OrchestrationError InboxReply → Prop where
  | same (outcome) : SameInboxOutcome outcome outcome
  | stale (text text') : SameInboxOutcome (.error (.staleEpoch text)) (.error (.staleEpoch text'))

namespace InboxCall

/-- The payload a call appends is parsed or malformed, not rejected. -/
def Parses (codec : InboxCodec) : InboxCall → Prop
  | .append dataPoint => ∀ error, codec.decode (codec.dumps dataPoint) ≠ .rejected error
  | .appendSerialized payload => ∀ error, codec.decode payload ≠ .rejected error
  | _ => True

end InboxCall

/-- What the calls of a list return, one after the other. -/
def InboxState.replies (codec : InboxCodec) (state : InboxState) :
    List InboxCall → List (Except OrchestrationError InboxReply)
  | [] => []
  | call :: calls =>
    (state.perform codec call).1 :: replies codec (state.perform codec call).2 calls

/-- What the calls of a list return, one after the other. -/
def RedisInbox.replies (codec : InboxCodec) (sessionId : SessionId) (inbox : RedisInbox) :
    List InboxCall → List (Except OrchestrationError InboxReply)
  | [] => []
  | call :: calls =>
    (inbox.perform codec sessionId call).1
      :: replies codec sessionId (inbox.perform codec sessionId call).2 calls

/-- The delivered entries that are pending. -/
def InboxState.deliveredCount (state : InboxState) : ℕ :=
  (state.messages.filter (fun message => message.claimed = true)).length

/-- Every `reclaim` among the calls finds at most as many delivered entries pending as one
`XAUTOCLAIM` claims. -/
def ReclaimsFit (codec : InboxCodec) (state : InboxState) : List InboxCall → Prop
  | [] => True
  | call :: calls =>
    (call = .reclaim → state.deliveredCount ≤ ConsumerGroup.autoclaimCount)
      ∧ ReclaimsFit codec (state.perform codec call).2 calls

/-! ### Lists with ids -/

section

variable {α : Type} {entryId : α → ℕ} {elements : List α}

theorem filter_entryId {start k : ℕ}
    (h : elements.map entryId = List.range' start elements.length) :
  elements.filter (fun element => start + k ≤ entryId element) = elements.drop k
  := by
  induction elements generalizing start k with
  | nil => rw [List.drop_nil, List.filter_nil]
  | cons element elements ih =>
      rw [List.map_cons, List.length_cons, List.range'_succ, List.cons.injEq] at h
      obtain ⟨rfl, htail⟩ := h
      cases k with
      | zero =>
          rw [List.drop_zero, List.filter_eq_self]
          intro other hmem
          rcases List.mem_cons.mp hmem with rfl | hmem
          · simp
          · have hid := List.mem_map_of_mem (f := entryId) hmem
            rw [htail, List.mem_range'_1] at hid
            simp only [decide_eq_true_eq]
            omega
      | succ k =>
          rw [List.filter_cons_of_neg (by simp), List.drop_succ_cons, ← ih htail]
          congr 1
          funext other
          congr 1
          apply propext
          constructor
          · intro hle
            omega
          · intro hle
            omega

/-- In an ascending list, the elements from the first to the last are all. -/
theorem entryId_between (h : (elements.map entryId).Pairwise (· < ·)) {first last element : α}
    (hfirst : elements.head? = some first) (hlast : elements.getLast? = some last)
    (hmem : element ∈ elements) :
  entryId first ≤ entryId element ∧ entryId element ≤ entryId last
  := by
  constructor
  · cases elements with
    | nil => cases hmem
    | cons head elements =>
        cases hfirst
        rcases List.mem_cons.mp hmem with rfl | hmem
        · apply Nat.le_refl
        · rw [List.map_cons, List.pairwise_cons] at h
          apply Nat.le_of_lt
          apply h.1 _ (List.mem_map_of_mem hmem)
  · obtain ⟨init, rfl⟩ : ∃ init, elements = init ++ [last] := List.getLast?_eq_some_iff.mp hlast
    rcases List.mem_append.mp hmem with hmem | hmem
    · rw [List.map_append, List.pairwise_append] at h
      apply Nat.le_of_lt
      apply h.2.2 _ (List.mem_map_of_mem hmem)
      simp
    · rw [List.mem_singleton.mp hmem]

end

/-! ### The keys of Redis as the in-memory inbox -/

/-- How many entries of the stream were delivered. -/
def ConsumerGroup.next (group : ConsumerGroup) : ℕ :=
  match group.lastDelivered with
  | none => 0
  | some entryId => entryId + 1

/-- An entry of the stream as a message that was never delivered. -/
def StreamEntry.message (entry : StreamEntry) : Message := ⟨entry.entryId, entry.payload, 0, false⟩

/-- A message as an entry of the stream. -/
def Message.streamEntry (message : Message) : StreamEntry := ⟨message.entryId, message.payload⟩

/-- A delivered message as a pending entry. -/
def Message.pending (message : Message) : PendingEntry :=
  ⟨message.entryId, message.deliveryCount⟩

/-- The keys hold what the in-memory inbox holds: the pending entries of the group are the
delivered messages `old`, the undelivered part of the stream is `fresh`. -/
structure Represents (codec : InboxCodec) (inbox : RedisInbox) (state : InboxState)
    (old fresh : List Message) : Prop where
  messages : state.messages = old ++ fresh
  old_claimed : ∀ message ∈ old, message.claimed = true
  stream_ids : inbox.stream.map StreamEntry.entryId = List.range state.nextId
  next_le : inbox.ensureGroup.next ≤ state.nextId
  undelivered : fresh = (inbox.stream.drop inbox.ensureGroup.next).map StreamEntry.message
  old_stream : ∀ message ∈ old, message.streamEntry ∈ inbox.stream
  old_ids : (old.map Message.entryId).Sublist (List.range inbox.ensureGroup.next)
  pending : inbox.ensureGroup.pending = old.map Message.pending
  epoch : inbox.inboxEpoch.getD 0 = state.maxEpoch
  acked : inbox.acked.getD 0 + state.messages.length = state.nextId
  records : inbox.records = state.quarantined
  parses : ∀ message ∈ state.messages, isRejected codec.decode message = false

theorem represents_initial (codec : InboxCodec) :
  Represents codec .initial .initial [] []
  := by
  constructor <;> simp [InboxState.initial, RedisInbox.initial, RedisInbox.ensureGroup,
    ConsumerGroup.created, ConsumerGroup.next]

namespace Represents

variable {codec : InboxCodec} {inbox : RedisInbox} {state : InboxState}
  {old fresh : List Message}

theorem stream_length (h : Represents codec inbox state old fresh) :
  inbox.stream.length = state.nextId
  := by
  rw [← List.length_map (f := StreamEntry.entryId), h.stream_ids, List.length_range]

theorem stream_nodup (h : Represents codec inbox state old fresh) :
  (inbox.stream.map StreamEntry.entryId).Nodup
  := by
  rw [h.stream_ids]
  apply List.nodup_range

theorem fresh_unclaimed (h : Represents codec inbox state old fresh) :
  ∀ message ∈ fresh, message.claimed = false
  := by
  intro message hmem
  rw [h.undelivered] at hmem
  obtain ⟨entry, -, rfl⟩ := List.mem_map.mp hmem
  rfl

/-- The ids of the undelivered part of the stream. -/
theorem undelivered_ids (h : Represents codec inbox state old fresh) :
  (inbox.stream.drop inbox.ensureGroup.next).map StreamEntry.entryId
    = List.range' inbox.ensureGroup.next
      (inbox.stream.drop inbox.ensureGroup.next).length
  := by
  rw [List.map_drop, h.stream_ids, List.range_eq_range', List.drop_range', List.length_drop,
    h.stream_length, Nat.zero_add, Nat.mul_one]

theorem old_pairwise (h : Represents codec inbox state old fresh) :
  (old.map Message.entryId).Pairwise (· < ·)
  := List.Pairwise.sublist h.old_ids List.pairwise_lt_range

theorem parts (h : Represents codec inbox state old fresh) :
  Parts state old fresh
  := by
  refine ⟨h.messages, h.old_claimed, h.fresh_unclaimed, ?_⟩
  rw [pendingIds, h.messages, List.map_append, h.undelivered, List.map_map]
  have hids : (inbox.stream.drop inbox.ensureGroup.next).map (Message.entryId ∘ StreamEntry.message)
      = _ := h.undelivered_ids
  rw [hids]
  apply List.nodup_append.mpr
  refine ⟨h.old_pairwise.imp Nat.ne_of_lt, List.nodup_range', ?_⟩
  rintro entryId hold _ hfresh rfl
  have hlt := List.mem_range.mp (h.old_ids.subset hold)
  rw [List.mem_range'_1] at hfresh
  omega

/-- What the group has not delivered. -/
theorem undelivered_eq (h : Represents codec inbox state old fresh) :
  inbox.ensureGroup.undelivered inbox.stream = inbox.stream.drop inbox.ensureGroup.next
  := by
  have hids : inbox.stream.map StreamEntry.entryId = List.range' 0 inbox.stream.length := by
    rw [h.stream_ids, h.stream_length, List.range_eq_range']
  rw [ConsumerGroup.undelivered, ← filter_entryId hids, ConsumerGroup.next]
  cases inbox.ensureGroup.lastDelivered with
  | none => simp
  | some last =>
      simp only [Option.all_some, Nat.zero_add, Nat.lt_iff_add_one_le]

/-! ### Delivery -/

/-- A payload that is not rejected is presented by both. -/
theorem exists_toEntry_eq_ok {decode : Decoder} {message : Message} {deliveryCount : ℕ}
    (h : isRejected decode message = false) :
  ∃ entry, RedisInbox.toEntry decode message.streamEntry deliveryCount = .ok entry
  := by
  have hsame : isRejected decode { message with deliveryCount := deliveryCount } = false := h
  obtain ⟨entry, hentry, -⟩ := toEntry_of_not_rejected hsame
  exact ⟨entry, hentry⟩

/-- An appended entry is undelivered in both. -/
theorem append (h : Represents codec inbox state old fresh) {payload : String}
    (hparses : ∀ error, codec.decode payload ≠ .rejected error) :
  (inbox.xadd payload).1 = (state.append payload).1
    ∧ Represents codec (inbox.xadd payload).2 (state.append payload).2 old
      (fresh ++ [⟨state.nextId, payload, 0, false⟩])
  := by
  constructor
  · apply h.stream_length
  constructor
  · rw [InboxState.append, h.messages, List.append_assoc]
  · apply h.old_claimed
  · rw [RedisInbox.xadd, List.map_append, h.stream_ids, InboxState.append, List.range_succ,
      h.stream_length]
    rfl
  · apply Nat.le_succ_of_le h.next_le
  · have hgroup : (inbox.xadd payload).2.ensureGroup = inbox.ensureGroup := rfl
    rw [hgroup, RedisInbox.xadd, List.drop_append_of_le_length, List.map_append, ← h.undelivered,
      h.stream_length]
    · rfl
    · rw [h.stream_length]
      apply h.next_le
  · intro message hmem
    apply List.mem_append_left _ (h.old_stream message hmem)
  · apply h.old_ids
  · apply h.pending
  · apply h.epoch
  · simp only [RedisInbox.xadd, InboxState.append, List.length_append, List.length_singleton]
    rw [← Nat.add_assoc, h.acked]
  · apply h.records
  · intro message hmem
    rcases List.mem_append.mp hmem with hmem | hmem
    · apply h.parses message hmem
    · rw [List.mem_singleton.mp hmem, isRejected]
      split
      · rename_i error hdecode
        exact absurd hdecode (hparses error)
      · rfl

/-- Once more entries are read, the group has delivered as many more. -/
theorem next_xreadgroup {group : ConsumerGroup} {stream delivered : List StreamEntry}
    {count : Option ℕ} (hdelivered : delivered = limited count (group.undelivered stream))
    (hids : delivered.map StreamEntry.entryId = List.range' group.next delivered.length) :
  (group.xreadgroup stream count).2.next = group.next + delivered.length
  := by
  rw [ConsumerGroup.xreadgroup, ← hdelivered]
  rcases List.eq_nil_or_concat' delivered with rfl | ⟨init, last, rfl⟩
  · rfl
  · rw [List.map_append, List.length_append, ← List.range'_append_1] at hids
    have hlast := List.append_inj_right' hids rfl
    have hid : last.entryId = group.next + init.length := by
      simpa using hlast
    simp only [List.getLast?_concat, Option.map_some, Option.or, ConsumerGroup.next, hid,
      List.length_append, List.length_singleton]
    omega

/-- The entries read for the first time are the same, and delivered in both afterwards. -/
theorem consume (h : Represents codec inbox state old fresh) (maxEntries : Option ℤ) :
  (inbox.consume codec.decode maxEntries).1
      = (state.consume codec.decode (maxEntries.map Int.toNat)).1
    ∧ ∃ old' fresh', Represents codec (inbox.consume codec.decode maxEntries).2
      (state.consume codec.decode (maxEntries.map Int.toNat)).2 old' fresh'
  := by
  rw [RedisInbox.consume]
  split
  · rename_i hnone
    obtain ⟨n, rfl, hle⟩ := (Option.any_eq_true _ _).mp hnone
    have hzero : (some n).map Int.toNat = some 0 := by
      have hle : n ≤ 0 := by simpa using hle
      rw [Option.map_some, Int.toNat_of_nonpos hle]
    rw [hzero, InboxState.consume, consumeLoop_zero]
    exact ⟨rfl, old, fresh, h⟩
  · generalize maxEntries.map Int.toNat = limit
    obtain ⟨rest, hrest⟩ := limited_append limit (inbox.stream.drop inbox.ensureGroup.next)
    obtain ⟨delivered, hdelivered⟩ : ∃ delivered,
      delivered = limited limit (inbox.stream.drop inbox.ensureGroup.next) := ⟨_, rfl⟩
    rw [← hdelivered] at hrest
    have hlimited : limited limit fresh = delivered.map StreamEntry.message := by
      rw [h.undelivered, limited_map, hdelivered]
    have hgroup : delivered = limited limit (inbox.ensureGroup.undelivered inbox.stream) := by
      rw [h.undelivered_eq, hdelivered]
    have hids := h.undelivered_ids
    rw [hrest] at hids
    obtain ⟨hids, -⟩ := ids_append hids
    have hnext := next_xreadgroup hgroup hids
    have hfresh : fresh = delivered.map StreamEntry.message ++ rest.map StreamEntry.message := by
      rw [h.undelivered, hrest, List.map_append]
    have hparses : ∀ message ∈ limited limit fresh, isRejected codec.decode message = false := by
      intro message hmem
      apply h.parses message
      rw [h.messages, hfresh, ← hlimited]
      simp [hmem]
    obtain ⟨rest', hrest', hloop, -⟩ := @consumeLoop_fresh codec.decode limit fresh h.fresh_unclaimed
    rw [upToRejected_eq_self hparses, hlimited] at hrest' hloop
    obtain rfl : rest.map StreamEntry.message = rest' := by
      rw [hfresh] at hrest'
      apply List.append_cancel_left hrest'
    have hmessages : (state.consume codec.decode limit).2
        = { state with messages := old ++ ((delivered.map StreamEntry.message).map claim
              ++ rest.map StreamEntry.message) } := by
      rw [InboxState.consume, h.messages, consumeLoop_old h.old_claimed, hloop]
    constructor
    · rw [InboxState.consume, h.messages, consumeLoop_old h.old_claimed]
      simp only [consumeLoop_reply h.fresh_unclaimed, hlimited, ConsumerGroup.xreadgroup, ← hgroup,
        List.mapM_map]
      rfl
    · refine ⟨old ++ (delivered.map StreamEntry.message).map claim, rest.map StreamEntry.message, ?_⟩
      have hlength := h.stream_length
      have hdrop := congrArg List.length hrest
      rw [List.length_drop, List.length_append] at hdrop
      have hle := h.next_le
      rw [hmessages]
      constructor
      · simp only [List.append_assoc]
      · intro message hmem
        rcases List.mem_append.mp hmem with hmem | hmem
        · apply h.old_claimed message hmem
        · obtain ⟨message', -, rfl⟩ := List.mem_map.mp hmem
          rfl
      · apply h.stream_ids
      · apply Nat.le_trans (Nat.le_of_eq hnext)
        change _ ≤ state.nextId
        omega
      · have hrest : inbox.stream.drop (inbox.ensureGroup.next + delivered.length) = rest := by
          rw [← List.drop_drop, hrest, List.drop_left]
        rw [← hrest, ← hnext]
        rfl
      · intro message hmem
        rcases List.mem_append.mp hmem with hmem | hmem
        · apply h.old_stream message hmem
        · simp only [List.map_map, List.mem_map] at hmem
          obtain ⟨entry, hentry, rfl⟩ := hmem
          apply List.mem_of_mem_drop (i := inbox.ensureGroup.next)
          rw [hrest]
          apply List.mem_append_left _ hentry
      · have hrange : List.range (inbox.ensureGroup.next + delivered.length)
            = List.range inbox.ensureGroup.next ++ delivered.map StreamEntry.entryId := by
          rw [hids, List.range_eq_range', ← List.range'_append_1, Nat.zero_add,
            List.range_eq_range']
        rw [← hnext] at hrange
        have hsublist : ((old ++ (delivered.map StreamEntry.message).map claim).map
            Message.entryId).Sublist
            (List.range (inbox.ensureGroup.xreadgroup inbox.stream limit).2.next) := by
          rw [hrange, List.map_append, List.map_map, List.map_map]
          apply h.old_ids.append_right
        apply hsublist
      · have hpending : (inbox.ensureGroup.xreadgroup inbox.stream limit).2.pending
            = inbox.ensureGroup.pending ++ delivered.map (fun entry => ⟨entry.entryId, 1⟩) := by
          rw [ConsumerGroup.xreadgroup, ← hgroup]
        rw [List.map_append, ← h.pending, List.map_map, List.map_map]
        apply hpending
      · apply h.epoch
      · have hacked := h.acked
        rw [h.messages, hfresh] at hacked
        simpa using hacked
      · apply h.records
      · intro message hmem
        have hsame : ∀ message, isRejected codec.decode (claim message)
            = isRejected codec.decode message := fun _ => rfl
        simp only [List.mem_append, List.map_map, List.mem_map] at hmem
        rcases hmem with hmem | ⟨entry, hentry, rfl⟩ | ⟨entry, hentry, rfl⟩
        · apply h.parses message
          rw [h.messages]
          apply List.mem_append_left _ hmem
        · rw [Function.comp_apply, hsame]
          apply hparses
          rw [hlimited]
          apply List.mem_map_of_mem hentry
        · apply h.parses
          rw [h.messages, hfresh]
          apply List.mem_append_right
          apply List.mem_append_right
          apply List.mem_map_of_mem hentry

/-- The entries of the stream behind pending ones. -/
theorem claimed_entries (h : Represents codec inbox state old fresh) {part : List Message}
    (hpart : part ⊆ old) :
  (part.map Message.pending).filterMap
      (fun pending => inbox.stream.find? (fun entry => entry.entryId = pending.entryId))
    = part.map Message.streamEntry
  := by
  rw [List.filterMap_map, ← List.filterMap_eq_map]
  apply List.filterMap_congr
  intro message hmem
  apply find?_entryId h.stream_nodup (h.old_stream message (hpart hmem))

/-- What `XAUTOCLAIM` does where it can claim all pending entries. -/
theorem xautoclaim_fits (h : Represents codec inbox state old fresh)
    (hfits : old.length ≤ ConsumerGroup.autoclaimCount) :
  inbox.ensureGroup.xautoclaim inbox.stream
    = (old.map Message.streamEntry,
      { inbox.ensureGroup with pending := (old.map redeliver).map Message.pending })
  := by
  have hlength : inbox.ensureGroup.pending.length ≤ ConsumerGroup.autoclaimCount := by
    rw [h.pending, List.length_map]
    apply hfits
  rw [ConsumerGroup.xautoclaim, List.take_of_length_le hlength, List.drop_of_length_le hlength,
    h.pending, List.append_nil, h.claimed_entries (List.Subset.refl old), List.map_map,
    List.map_map]
  rfl

/-- The delivery count `reclaim` reads for an entry it claimed. -/
theorem deliveryCount_fits (h : Represents codec inbox state old fresh) {message : Message}
    (hmem : message ∈ old) :
  RedisInbox.deliveryCount
      (RedisInbox.deliveryCounts
        { inbox.ensureGroup with pending := (old.map redeliver).map Message.pending }
        (old.map Message.streamEntry))
      message.entryId
    = message.deliveryCount + 1
  := by
  have hids : (old.map Message.streamEntry).map StreamEntry.entryId
      = old.map Message.entryId := by
    rw [List.map_map]
    rfl
  have hpending : ((old.map redeliver).map Message.pending).map PendingEntry.entryId
      = old.map Message.entryId := by
    rw [List.map_map, List.map_map]
    rfl
  have hne : old.map Message.streamEntry ≠ [] := by
    intro hnil
    rw [List.map_eq_nil_iff.mp hnil] at hmem
    cases hmem
  have hfirst := List.head?_eq_some_head hne
  have hlast := List.getLast?_eq_some_getLast hne
  have hpairwise := h.old_pairwise
  rw [← hids] at hpairwise
  have hall : ∀ pending ∈ (old.map redeliver).map Message.pending,
      decide (((old.map Message.streamEntry).head hne).entryId ≤ pending.entryId
        ∧ pending.entryId ≤ ((old.map Message.streamEntry).getLast hne).entryId) = true := by
    intro pending hpending
    rw [List.map_map, List.mem_map] at hpending
    obtain ⟨message', hmem', rfl⟩ := hpending
    apply decide_eq_true
    apply entryId_between hpairwise hfirst hlast (List.mem_map_of_mem hmem')
  have hcounts : RedisInbox.deliveryCounts
      { inbox.ensureGroup with pending := (old.map redeliver).map Message.pending }
      (old.map Message.streamEntry) = (old.map redeliver).map Message.pending := by
    rw [RedisInbox.deliveryCounts, hfirst, hlast]
    simp only [ConsumerGroup.xpendingRange]
    rw [List.filter_eq_self.mpr hall, List.take_of_length_le]
    simp
  have hnodup : (((old.map redeliver).map Message.pending).map PendingEntry.entryId).Nodup := by
    rw [hpending]
    apply h.old_pairwise.imp Nat.ne_of_lt
  have hfind := find?_entryId hnodup
    (List.mem_map_of_mem (f := Message.pending) (List.mem_map_of_mem (f := redeliver) hmem))
  rw [hcounts, RedisInbox.deliveryCount]
  have hsame : (redeliver message).pending.entryId = message.entryId := rfl
  rw [hsame] at hfind
  rw [hfind]
  rfl

theorem filter_claimed (h : Represents codec inbox state old fresh) :
  state.messages.filter Message.claimed = old
  := by
  rw [← h.parts.filter_claimed]
  congr 1
  funext message
  cases message.claimed
  · rfl
  · rfl

theorem old_parses (h : Represents codec inbox state old fresh) :
  ∀ message ∈ old, isRejected codec.decode message = false
  := by
  intro message hmem
  apply h.parses
  rw [h.messages]
  apply List.mem_append_left _ hmem

/-- Entries are presented again with the same counts where one `XAUTOCLAIM` claims all. -/
theorem reclaim_fits (h : Represents codec inbox state old fresh)
    (hfits : old.length ≤ ConsumerGroup.autoclaimCount) :
  (inbox.reclaim codec.decode).1 = (state.reclaim codec.decode).1
    ∧ Represents codec (inbox.reclaim codec.decode).2 (state.reclaim codec.decode).2
      (old.map redeliver) fresh
  := by
  have hparses := h.old_parses
  obtain ⟨rest, hrest, hloop, -⟩ := @reclaimLoop_old codec.decode old fresh h.old_claimed
    h.fresh_unclaimed
  rw [upToRejected_eq_self hparses] at hrest hloop
  obtain rfl : rest = [] := List.self_eq_append_right.mp hrest
  rw [List.append_nil] at hloop
  have hids : (old.map redeliver).map Message.entryId = old.map Message.entryId := by
    rw [List.map_map]
    rfl
  have hstate : (state.reclaim codec.decode).2
      = { state with messages := old.map redeliver ++ fresh } := by
    rw [← hloop, InboxState.reclaim, h.messages]
  constructor
  · rw [RedisInbox.reclaim, h.xautoclaim_fits hfits, InboxState.reclaim]
    simp only [reclaimLoop_reply]
    rw [h.filter_claimed, List.mapM_map, List.mapM_map]
    apply mapM_congr
    intro message hmem
    apply congrArg (RedisInbox.toEntry codec.decode message.streamEntry)
      (h.deliveryCount_fits hmem)
  · rw [hstate]
    have hredis : (inbox.reclaim codec.decode).2 = { inbox with group := some { inbox.ensureGroup with
        pending := (old.map redeliver).map Message.pending } } := by
      rw [RedisInbox.reclaim, h.xautoclaim_fits hfits]
    rw [hredis]
    constructor
    · rfl
    · intro message hmem
      obtain ⟨message', hmem', rfl⟩ := List.mem_map.mp hmem
      apply h.old_claimed message' hmem'
    · apply h.stream_ids
    · apply h.next_le
    · apply h.undelivered
    · intro message hmem
      obtain ⟨message', hmem', rfl⟩ := List.mem_map.mp hmem
      apply h.old_stream message' hmem'
    · rw [hids]
      apply h.old_ids
    · rfl
    · apply h.epoch
    · have hacked := h.acked
      rw [h.messages] at hacked
      simpa using hacked
    · apply h.records
    · intro message hmem
      rcases List.mem_append.mp hmem with hmem | hmem
      · obtain ⟨message', hmem', rfl⟩ := List.mem_map.mp hmem
        apply hparses message' hmem'
      · apply h.parses
        rw [h.messages]
        apply List.mem_append_right _ hmem

theorem deliveredCount_eq (h : Represents codec inbox state old fresh) :
  state.deliveredCount = old.length
  := by
  rw [deliveredCount, h.parts.filter_claimed]

/-- With more pending entries than one `XAUTOCLAIM` claims, fewer are presented again. -/
theorem reclaim_differs (h : Represents codec inbox state old fresh)
    (hmore : ConsumerGroup.autoclaimCount < old.length) :
  ¬SameInboxOutcome ((inbox.reclaim codec.decode).1.map InboxReply.delivered)
    ((state.reclaim codec.decode).1.map InboxReply.delivered)
  := by
  have hclaimed : (inbox.ensureGroup.xautoclaim inbox.stream).1
      = (old.take ConsumerGroup.autoclaimCount).map Message.streamEntry := by
    rw [ConsumerGroup.xautoclaim, h.pending, ← List.map_take,
      h.claimed_entries (List.take_subset _ _)]
  have hredis : ∃ delivered, (inbox.reclaim codec.decode).1 = .ok delivered
      ∧ delivered.length = ConsumerGroup.autoclaimCount := by
    have hlength : (old.take ConsumerGroup.autoclaimCount).length
        = ConsumerGroup.autoclaimCount := List.length_take_of_le (Nat.le_of_lt hmore)
    rw [RedisInbox.reclaim, ← hlength]
    simp only [hclaimed, List.mapM_map]
    apply exists_mapM_eq_ok
    intro message hmem
    apply exists_toEntry_eq_ok (h.old_parses message (List.mem_of_mem_take hmem))
  have hmemory : ∃ delivered, (state.reclaim codec.decode).1 = .ok delivered
      ∧ delivered.length = old.length := by
    rw [InboxState.reclaim]
    simp only [reclaimLoop_reply, h.filter_claimed, List.mapM_map]
    apply exists_mapM_eq_ok
    intro message hmem
    apply exists_toEntry_eq_ok (h.old_parses message hmem)
  obtain ⟨delivered, hredis, hlength⟩ := hredis
  obtain ⟨delivered', hmemory, hlength'⟩ := hmemory
  rw [hredis, hmemory]
  intro hsame
  cases hsame
  omega

/-! ### Removal -/

/-- The group created where there was none. -/
theorem grouped (h : Represents codec inbox state old fresh) :
  Represents codec { inbox with group := some inbox.ensureGroup } state old fresh
  := { h with }

/-- The watermark raised in both. -/
theorem raiseEpoch (h : Represents codec inbox state old fresh) {epoch : Epoch}
    (hle : state.maxEpoch ≤ epoch) :
  Represents codec (inbox.raiseEpoch epoch) { state with maxEpoch := epoch } old fresh
  := by
  rw [RedisInbox.raiseEpoch]
  split
  · refine { h with epoch := ?_ }
    rfl
  · rename_i hlt
    refine { h with epoch := ?_ }
    rw [h.epoch] at hlt ⊢
    apply Nat.le_antisymm hle (Nat.not_lt.mp hlt)

/-- `XACK` of an entry that is not pending. -/
theorem xack_of_notMem (h : Represents codec inbox state old fresh) {entryId : ℕ}
    (hnot : entryId ∉ old.map Message.entryId) :
  inbox.xack entryId = (false, inbox)
  := by
  rw [RedisInbox.xack]
  split
  · rfl
  · rename_i group hgroup
    have hpending := h.pending
    rw [RedisInbox.ensureGroup, hgroup, Option.getD_some] at hpending
    rw [hpending, if_neg]
    intro hany
    obtain ⟨pending, hmem, hsame⟩ := List.any_eq_true.mp hany
    obtain ⟨message, hmessage, rfl⟩ := List.mem_map.mp hmem
    apply hnot
    rw [← of_decide_eq_true hsame]
    apply List.mem_map_of_mem hmessage

/-- `XACK` of a pending entry. -/
theorem xack_of_mem {before after : List Message} {message : Message}
    (h : Represents codec inbox state (before ++ message :: after) fresh) :
  inbox.xack message.entryId
    = (true, { inbox with group := some { inbox.ensureGroup with
        pending := (before ++ after).map Message.pending } })
  := by
  have hpending := h.pending
  have hnodup : ((before.map Message.pending ++ message.pending :: after.map Message.pending).map
      PendingEntry.entryId).Nodup := by
    rw [← List.map_cons, ← List.map_append, List.map_map]
    apply h.old_pairwise.imp Nat.ne_of_lt
  have herase := eraseP_entryId hnodup
  rw [RedisInbox.ensureGroup] at hpending ⊢
  rw [List.map_append, List.map_cons] at hpending
  rw [RedisInbox.xack]
  cases hgroup : inbox.group with
  | none =>
      rw [hgroup] at hpending
      cases before with
      | nil => cases hpending
      | cons head before => cases hpending
  | some group =>
      rw [hgroup, Option.getD_some] at hpending
      simp only [hpending, Option.getD_some]
      rw [if_pos, List.map_append]
      · congr 4
      · simp [Message.pending]

/-- A pending entry removed in both, counted, and recorded in both if it is. -/
theorem dispose {before after : List Message} {message : Message}
    (h : Represents codec inbox state (before ++ message :: after) fresh)
    (recorded : List QuarantinedEntry) :
  Represents codec
    { inbox with
      group := some { inbox.ensureGroup with pending := (before ++ after).map Message.pending }
      acked := some (inbox.acked.getD 0 + 1)
      records := inbox.records ++ recorded }
    { state with
      messages := before ++ after ++ fresh
      quarantined := state.quarantined ++ recorded }
    (before ++ after) fresh
  := by
  have hsub : ∀ other ∈ before ++ after, other ∈ before ++ message :: after := by
    intro other hmem
    simp only [List.mem_append, List.mem_cons] at hmem ⊢
    tauto
  constructor
  · rfl
  · intro other hmem
    apply h.old_claimed other (hsub other hmem)
  · apply h.stream_ids
  · apply h.next_le
  · apply h.undelivered
  · intro other hmem
    apply h.old_stream other (hsub other hmem)
  · apply List.Sublist.trans _ h.old_ids
    apply List.Sublist.map
    apply List.Sublist.append_left
    apply List.sublist_cons_self
  · rfl
  · apply h.epoch
  · have hacked := h.acked
    rw [h.messages] at hacked
    simp only [List.length_append, List.length_cons, Option.getD_some] at hacked ⊢
    omega
  · rw [h.records]
  · intro other hmem
    apply h.parses
    rw [h.messages]
    simp only [List.mem_append, List.mem_cons] at hmem ⊢
    tauto

theorem removeScript_stale (h : Represents codec inbox state old fresh) {epoch : Epoch}
    (hlt : epoch < state.maxEpoch) (entryId : ℕ) (note : RedisInbox → RedisInbox) :
  inbox.removeScript epoch entryId note = (none, inbox)
  := by
  rw [RedisInbox.removeScript, h.epoch, if_pos hlt]

theorem removeScript_none (h : Represents codec inbox state old fresh) {epoch : Epoch}
    (hle : state.maxEpoch ≤ epoch) {entryId : ℕ} (hclaimed : state.claimed? entryId = none)
    (note : RedisInbox → RedisInbox) :
  inbox.removeScript epoch entryId note = (some false, inbox.raiseEpoch epoch)
  := by
  have hnot := h.parts.claimed?_eq_none hclaimed
  rw [RedisInbox.removeScript, h.epoch, if_neg (Nat.not_lt.mpr hle),
    (h.raiseEpoch hle).xack_of_notMem hnot]
  rfl

theorem removeScript_some {before after : List Message} {message : Message}
    (h : Represents codec inbox state (before ++ message :: after) fresh) {epoch : Epoch}
    (hle : state.maxEpoch ≤ epoch) (note : RedisInbox → RedisInbox) :
  inbox.removeScript epoch message.entryId note
    = (some true, note { inbox.raiseEpoch epoch with
        group := some { (inbox.raiseEpoch epoch).ensureGroup with
          pending := (before ++ after).map Message.pending } })
  := by
  rw [RedisInbox.removeScript, h.epoch, if_neg (Nat.not_lt.mpr hle),
    (h.raiseEpoch hle).xack_of_mem]
  rfl

/-- An ack has the same outcome, and removes the same entry. -/
theorem ack (h : Represents codec inbox state old fresh) (sessionId : SessionId) (entryId : ℕ)
    (epoch : Epoch) :
  SameInboxOutcome (inbox.ack sessionId entryId epoch).1
      (state.perform codec (.ack entryId epoch)).1
    ∧ ∃ old', Represents codec (inbox.ack sessionId entryId epoch).2
      (state.perform codec (.ack entryId epoch)).2 old' fresh
  := by
  rw [RedisInbox.ack, RedisInbox.ackScript, perform_ack]
  rcases Nat.lt_or_ge epoch state.maxEpoch with hlt | hle
  · rw [h.removeScript_stale hlt, if_pos hlt]
    constructor
    · apply SameInboxOutcome.stale
    · use old
  · rw [if_neg (Nat.not_lt.mpr hle)]
    cases hclaimed : state.claimed? entryId with
    | none =>
        rw [h.removeScript_none hle hclaimed]
        constructor
        · apply SameInboxOutcome.same
        · use old
          apply h.raiseEpoch hle
    | some message =>
        obtain ⟨before, after, rfl, rfl, hwithout⟩ := h.parts.claimed?_eq_some hclaimed
        have hdispose := (h.raiseEpoch hle).dispose []
        rw [List.append_nil, List.append_nil] at hdispose
        rw [h.removeScript_some hle]
        simp only [hwithout]
        constructor
        · apply SameInboxOutcome.same
        · use before ++ after
          apply hdispose

/-- The record of a pending entry. -/
theorem quarantineRecord_eq {before after : List Message} {message : Message}
    (h : Represents codec inbox state (before ++ message :: after) fresh) (reason : String) :
  inbox.quarantineRecord message.entryId reason
    = ⟨message.entryId, reason, message.deliveryCount, message.payload⟩
  := by
  have hnodup : ((before ++ message :: after).map Message.entryId).Nodup :=
    h.old_pairwise.imp Nat.ne_of_lt
  rw [List.map_append, List.map_cons, List.nodup_middle, ← List.map_append, List.nodup_cons]
    at hnodup
  have hothers : ∀ other ∈ before ++ after, ¬(message.entryId ≤ other.pending.entryId
      ∧ other.pending.entryId ≤ message.entryId) := by
    rintro other hmem ⟨hle, hge⟩
    apply hnodup.1
    rw [Nat.le_antisymm hle hge]
    apply List.mem_map_of_mem hmem
  have hrange : inbox.ensureGroup.xpendingRange message.entryId message.entryId 1
      = [message.pending] := by
    rw [ConsumerGroup.xpendingRange, h.pending, List.map_append, List.map_cons,
      List.filter_append, List.filter_cons_of_pos (by simp [Message.pending]),
      List.filter_eq_nil_iff.mpr, List.filter_eq_nil_iff.mpr]
    · rfl
    · intro pending hmem
      obtain ⟨other, hother, rfl⟩ := List.mem_map.mp hmem
      simpa using hothers other (List.mem_append_right _ hother)
    · intro pending hmem
      obtain ⟨other, hother, rfl⟩ := List.mem_map.mp hmem
      simpa using hothers other (List.mem_append_left _ hother)
  have hentry : inbox.stream.find? (fun entry => entry.entryId = message.entryId)
      = some message.streamEntry := by
    apply find?_entryId h.stream_nodup (h.old_stream message _)
    simp
  rw [RedisInbox.quarantineRecord, hrange, hentry]
  rfl

/-- A quarantine has the same outcome, and removes and records the same entry. -/
theorem quarantine (h : Represents codec inbox state old fresh) (sessionId : SessionId)
    (entryId : ℕ) (reason : String) (epoch : Epoch) :
  SameInboxOutcome (inbox.quarantine sessionId entryId reason epoch).1
      (state.perform codec (.quarantine entryId reason epoch)).1
    ∧ ∃ old', Represents codec (inbox.quarantine sessionId entryId reason epoch).2
      (state.perform codec (.quarantine entryId reason epoch)).2 old' fresh
  := by
  have hgrouped := h.grouped
  rw [RedisInbox.quarantine, perform_quarantine]
  generalize { inbox with group := some inbox.ensureGroup } = grouped at *
  simp only [RedisInbox.quarantineScript]
  rcases Nat.lt_or_ge epoch state.maxEpoch with hlt | hle
  · rw [hgrouped.removeScript_stale hlt, if_pos hlt]
    constructor
    · apply SameInboxOutcome.stale
    · use old
  · rw [if_neg (Nat.not_lt.mpr hle)]
    cases hclaimed : state.claimed? entryId with
    | none =>
        rw [hgrouped.removeScript_none hle hclaimed]
        constructor
        · apply SameInboxOutcome.same
        · use old
          apply hgrouped.raiseEpoch hle
    | some message =>
        obtain ⟨before, after, rfl, rfl, hwithout⟩ := h.parts.claimed?_eq_some hclaimed
        rw [hgrouped.removeScript_some hle, hgrouped.quarantineRecord_eq]
        simp only [hwithout]
        constructor
        · apply SameInboxOutcome.same
        · use before ++ after
          apply (hgrouped.raiseEpoch hle).dispose

/-! ### Calls and runs -/

theorem pendingCount_eq (h : Represents codec inbox state old fresh) :
  inbox.pendingCount = state.pendingCount
  := by
  have hacked := h.acked
  rw [RedisInbox.pendingCount, h.stream_length, InboxState.pendingCount, ← hacked]
  omega

/-- A call that finds no more pending entries than one `XAUTOCLAIM` claims. -/
theorem step (h : Represents codec inbox state old fresh) (sessionId : SessionId)
    {call : InboxCall} (hparses : call.Parses codec)
    (hfits : call = .reclaim → state.deliveredCount ≤ ConsumerGroup.autoclaimCount) :
  SameInboxOutcome (inbox.perform codec sessionId call).1 (state.perform codec call).1
    ∧ ∃ old' fresh', Represents codec (inbox.perform codec sessionId call).2
      (state.perform codec call).2 old' fresh'
  := by
  cases call with
  | append dataPoint =>
      obtain ⟨hid, hnext⟩ := h.append hparses
      constructor
      · rw [RedisInbox.perform, InboxState.perform]
        simp only [hid]
        apply SameInboxOutcome.same
      · exact ⟨_, _, hnext⟩
  | appendSerialized payload =>
      obtain ⟨hid, hnext⟩ := h.append hparses
      constructor
      · rw [RedisInbox.perform, InboxState.perform]
        simp only [hid]
        apply SameInboxOutcome.same
      · exact ⟨_, _, hnext⟩
  | consume maxEntries =>
      obtain ⟨hsame, old', fresh', hnext⟩ := h.consume maxEntries
      constructor
      · rw [RedisInbox.perform, InboxState.perform]
        simp only [hsame]
        apply SameInboxOutcome.same
      · exact ⟨old', fresh', hnext⟩
  | reclaim =>
      have hlength := hfits rfl
      rw [h.deliveredCount_eq] at hlength
      obtain ⟨hsame, hnext⟩ := h.reclaim_fits hlength
      constructor
      · rw [RedisInbox.perform, InboxState.perform]
        simp only [hsame]
        apply SameInboxOutcome.same
      · exact ⟨_, fresh, hnext⟩
  | ack entryId epoch =>
      obtain ⟨hsame, old', hnext⟩ := h.ack sessionId entryId epoch
      exact ⟨hsame, old', fresh, hnext⟩
  | quarantine entryId reason epoch =>
      obtain ⟨hsame, old', hnext⟩ := h.quarantine sessionId entryId reason epoch
      exact ⟨hsame, old', fresh, hnext⟩
  | quarantined =>
      constructor
      · rw [RedisInbox.perform, h.records]
        apply SameInboxOutcome.same
      · exact ⟨old, fresh, h⟩
  | pendingCount =>
      constructor
      · rw [RedisInbox.perform, h.pendingCount_eq]
        apply SameInboxOutcome.same
      · exact ⟨old, fresh, h⟩

end Represents

/-- From inboxes that hold the same, the replies agree exactly where every `reclaim` fits. -/
theorem Represents.replies_agree_iff {codec : InboxCodec} (sessionId : SessionId)
    {calls : List InboxCall} (hparses : ∀ call ∈ calls, call.Parses codec) {inbox : RedisInbox}
    {state : InboxState} {old fresh : List Message} (h : Represents codec inbox state old fresh) :
  List.Forall₂ SameInboxOutcome (inbox.replies codec sessionId calls) (state.replies codec calls)
    ↔ ReclaimsFit codec state calls
  := by
  induction calls generalizing inbox state old fresh with
  | nil => exact ⟨fun _ => trivial, fun _ => List.Forall₂.nil⟩
  | cons call calls ih =>
      obtain ⟨hcall, hcalls⟩ := List.forall_mem_cons.mp hparses
      rw [RedisInbox.replies, InboxState.replies, List.forall₂_cons, ReclaimsFit]
      by_cases hfits : call = .reclaim → state.deliveredCount ≤ ConsumerGroup.autoclaimCount
      · obtain ⟨hsame, old', fresh', hnext⟩ := h.step sessionId hcall hfits
        rw [ih hcalls hnext]
        exact ⟨fun hagree => ⟨hfits, hagree.2⟩, fun hagree => ⟨hsame, hagree.2⟩⟩
      · constructor
        · rintro ⟨hsame, -⟩
          obtain ⟨rfl, hmore⟩ := Classical.not_imp.mp hfits
          rw [h.deliveredCount_eq, Nat.not_le] at hmore
          exact absurd hsame (h.reclaim_differs hmore)
        · rintro ⟨hagree, -⟩
          exact absurd hagree hfits

/-- Both inboxes answer the same to any calls exactly where no `reclaim` among them finds more
delivered entries pending than one `XAUTOCLAIM` claims. -/
theorem inbox_replies_agree_iff (codec : InboxCodec) (sessionId : SessionId)
    (calls : List InboxCall) (hparses : ∀ call ∈ calls, call.Parses codec) :
  List.Forall₂ SameInboxOutcome (RedisInbox.initial.replies codec sessionId calls)
      (InboxState.initial.replies codec calls)
    ↔ ReclaimsFit codec .initial calls
  := (represents_initial codec).replies_agree_iff sessionId hparses

/-- A codec under which no payload is JSON. -/
def malformedCodec : InboxCodec where
  dumps _ := ""
  decode _ := .malformed "JSONDecodeError: unexpected character"

/-- An entry delivered twice and quarantined. -/
theorem inbox_replies_agree_iff_quarantined :
  List.Forall₂ SameInboxOutcome
      (RedisInbox.initial.replies malformedCodec "session"
        [.appendSerialized "not-json", .consume none, .reclaim, .quarantine 0 "poison" 1,
          .quarantined, .pendingCount])
      (InboxState.initial.replies malformedCodec
        [.appendSerialized "not-json", .consume none, .reclaim, .quarantine 0 "poison" 1,
          .quarantined, .pendingCount])
    ↔ ReclaimsFit malformedCodec .initial
        [.appendSerialized "not-json", .consume none, .reclaim, .quarantine 0 "poison" 1,
          .quarantined, .pendingCount]
  := by
  apply inbox_replies_agree_iff
  simp [InboxCall.Parses, malformedCodec]

/-- How many entries a reply delivers. -/
def deliveredLength : Except OrchestrationError InboxReply → ℕ
  | .ok (.delivered entries) => entries.length
  | _ => 0

theorem map_deliveredLength {replies replies' : List (Except OrchestrationError InboxReply)}
    (h : List.Forall₂ SameInboxOutcome replies replies') :
  replies.map deliveredLength = replies'.map deliveredLength
  := by
  induction h with
  | nil => rfl
  | cons hsame _ ih =>
      rw [List.map_cons, List.map_cons, ih]
      cases hsame with
      | same outcome => rfl
      | stale text text' => rfl

/-- Of 101 delivered entries, the Redis inbox presents 100 again. -/
theorem reclaim_drops_entry :
  ¬List.Forall₂ SameInboxOutcome
      (RedisInbox.initial.replies malformedCodec "session"
        (List.replicate 101 (.appendSerialized "not-json") ++ [.consume none, .reclaim]))
      (InboxState.initial.replies malformedCodec
        (List.replicate 101 (.appendSerialized "not-json") ++ [.consume none, .reclaim]))
  := by
  intro hagree
  have hlengths := map_deliveredLength hagree
  revert hlengths
  decide +kernel

end Orcastork
