import Orcastork.Adapters.Memory.StoreMerge
import Orcastork.Orchestrator.Drain

/-!
# The progress of a drain

A drain isolates the entries of a batch from one another. It settles them one after another,
each as its own disposition says (`DrainCall.disposition`): applied and acked, quarantined, or
left pending. `Progress` is what holds when some of them are settled. Every step of the drain
settles one more entry or is fenced off, and nothing but fencing stops a drain.
-/

namespace Orcastork

namespace InboxState

variable {decode : Decoder} {messages rest : List Message} {state : InboxState}
  {delivered : List DeliveredInboxEntry}

/-! ### Delivered entries -/

/-- A message delivered without raising is parsed to an entry of its own. -/
theorem entryId_toEntry {message : Message} {entry : DeliveredInboxEntry}
    (h : toEntry decode message = .ok entry) :
  entry.entryId = message.entryId
  := by
  rw [toEntry] at h
  split at h
  · cases h
    rfl
  · cases h
    rfl
  · cases h

/-- What a reclaim that returns makes of a message. -/
def reclaimed (message : Message) : Message :=
  if message.claimed then redeliver message else message

/-- What a consume without a limit that returns makes of a message. -/
def consumed (message : Message) : Message :=
  if message.claimed then message else claim message

@[simp]
theorem entryId_reclaimed (message : Message) :
  (reclaimed message).entryId = message.entryId
  := by
  rw [reclaimed]
  split <;> rfl

@[simp]
theorem claimed_reclaimed (message : Message) :
  (reclaimed message).claimed = message.claimed
  := by
  rw [reclaimed]
  split <;> rfl

@[simp]
theorem entryId_consumed (message : Message) :
  (consumed message).entryId = message.entryId
  := by
  rw [consumed]
  split <;> rfl

@[simp]
theorem claimed_consumed (message : Message) :
  (consumed message).claimed = true
  := by
  rw [consumed]
  split
  · assumption
  · rfl

/-- A reclaim that returns has presented every claimed message. -/
theorem reclaimLoop_eq_ok (h : reclaimLoop decode messages = (.ok delivered, rest)) :
  rest = messages.map reclaimed
    ∧ delivered.map DeliveredInboxEntry.entryId
      = (messages.filter Message.claimed).map Message.entryId
  := by
  induction messages generalizing delivered rest with
  | nil =>
      cases h
      exact ⟨rfl, rfl⟩
  | cons message messages ih =>
      rw [reclaimLoop] at h
      cases hloop : reclaimLoop decode messages with
      | mk others remaining =>
          rw [hloop] at h
          cases hclaimed : message.claimed with
          | false =>
              simp only [hclaimed, Bool.false_eq_true, if_false] at h
              cases h
              obtain ⟨hrest, hids⟩ := ih hloop
              simp [reclaimed, hclaimed, hrest, hids]
          | true =>
              simp only [hclaimed, if_true] at h
              cases hentry : toEntry decode (redeliver message) with
              | error error =>
                  rw [hentry] at h
                  cases h
              | ok entry =>
                  rw [hentry] at h
                  cases others with
                  | error error => cases h
                  | ok others =>
                      cases h
                      obtain ⟨hrest, hids⟩ := ih hloop
                      simp [reclaimed, hclaimed, hrest, hids, entryId_toEntry hentry, redeliver]

/-- A consume without a limit that returns has claimed every message. -/
theorem consumeLoop_eq_ok (h : consumeLoop decode none messages = (.ok delivered, rest)) :
  rest = messages.map consumed
    ∧ delivered.map DeliveredInboxEntry.entryId
      = (messages.filter (fun message => !message.claimed)).map Message.entryId
  := by
  induction messages generalizing delivered rest with
  | nil =>
      cases h
      exact ⟨rfl, rfl⟩
  | cons message messages ih =>
      rw [consumeLoop, if_neg (by simp)] at h
      cases hloop : consumeLoop decode none messages with
      | mk others remaining =>
          simp only [Option.map_none, hloop] at h
          cases hclaimed : message.claimed with
          | true =>
              simp only [hclaimed, if_true] at h
              cases h
              obtain ⟨hrest, hids⟩ := ih hloop
              simp [consumed, hclaimed, hrest, hids]
          | false =>
              simp only [hclaimed, Bool.false_eq_true, if_false] at h
              cases hentry : toEntry decode (claim message) with
              | error error =>
                  rw [hentry] at h
                  cases h
              | ok entry =>
                  rw [hentry] at h
                  cases others with
                  | error error => cases h
                  | ok others =>
                      cases h
                      obtain ⟨hrest, hids⟩ := ih hloop
                      simp [consumed, hclaimed, hrest, hids, entryId_toEntry hentry, claim]

/-- A delivery that returns is a reclaim and a consume that do. -/
theorem deliver_eq_ok {inbox : InboxState} (h : state.deliver decode = (.ok delivered, inbox)) :
  ∃ first second messages,
    reclaimLoop decode state.messages = (.ok first, messages)
      ∧ consumeLoop decode none messages = (.ok second, inbox.messages)
      ∧ delivered = first ++ second ∧ inbox = { state with messages := inbox.messages }
  := by
  rw [deliver] at h
  split at h
  · cases h
  · rename_i first middle hreclaim
    simp only [reclaim, Prod.mk.injEq] at hreclaim
    obtain ⟨hfirst, rfl⟩ := hreclaim
    split at h
    · cases h
    · rename_i second last hconsume
      simp only [consume, Prod.mk.injEq] at hconsume
      obtain ⟨hsecond, rfl⟩ := hconsume
      cases h
      exact ⟨first, second, _, Prod.ext hfirst rfl, Prod.ext hsecond rfl, rfl, rfl⟩

/-- The entries that are delivered are the pending ones, all of them claimed by now. -/
structure Delivers (state : InboxState) (delivered : List DeliveredInboxEntry)
    (inbox : InboxState) : Prop where
  claimed : ∀ message ∈ inbox.messages, message.claimed = true
  pendingIds : inbox.pendingIds = state.pendingIds
  entries : (delivered.map DeliveredInboxEntry.entryId).Perm state.pendingIds
  quarantined : inbox.quarantined = state.quarantined
  maxEpoch : inbox.maxEpoch = state.maxEpoch

theorem delivers {inbox : InboxState} (h : state.deliver decode = (.ok delivered, inbox)) :
  Delivers state delivered inbox
  := by
  obtain ⟨first, second, messages, hreclaim, hconsume, rfl, hinbox⟩ := deliver_eq_ok h
  obtain ⟨hmessages, hfirst⟩ := reclaimLoop_eq_ok hreclaim
  obtain ⟨hclaimed, hsecond⟩ := consumeLoop_eq_ok hconsume
  have hids : inbox.messages = state.messages.map (consumed ∘ reclaimed) := by
    rw [hclaimed, hmessages, List.map_map]
  have hfresh : (messages.filter (fun message => !message.claimed)).map Message.entryId
      = (state.messages.filter (fun message => !message.claimed)).map Message.entryId := by
    rw [hmessages, List.filter_map, List.map_map]
    simp [Function.comp_def]
  rw [hinbox]
  constructor
  · intro message hmem
    obtain ⟨before, _, rfl⟩ := List.mem_map.mp (hclaimed ▸ hmem)
    apply claimed_consumed
  · simp [InboxState.pendingIds, hids]
  · rw [List.map_append, hfirst, hsecond, hfresh, ← List.map_append]
    apply List.Perm.map
    apply List.filter_append_perm
  · rfl
  · rfl

/-! ### Entries removed from a delivered batch -/

/-- Every pending entry was delivered, and they are told apart by their ids. -/
structure AllDelivered (inbox : InboxState) : Prop where
  claimed : ∀ message ∈ inbox.messages, message.claimed = true
  nodup : inbox.pendingIds.Nodup

variable {inbox inbox' : InboxState} {entryId : ℕ} {epoch : Epoch} {reason : String}

theorem AllDelivered.claimed? (h : AllDelivered inbox) {message : Message}
    (hmem : message ∈ inbox.messages) :
  inbox.claimed? message.entryId = some message
  := by
  rw [InboxState.claimed?, find?_entryId h.nodup hmem, Option.filter_some, h.claimed message hmem]
  rfl

theorem AllDelivered.without (h : AllDelivered inbox) {message : Message}
    (hmem : message ∈ inbox.messages) :
  inbox.without message.entryId
    = inbox.messages.filter (fun other => other.entryId ≠ message.entryId)
  := eraseP_eq_filter h.nodup hmem

/-- An ack of a delivered entry that returns has removed it. -/
theorem AllDelivered.ack (h : AllDelivered inbox) (hmem : entryId ∈ inbox.pendingIds)
    (hack : inbox.ack entryId epoch = .ok inbox') :
  inbox' = { inbox with
    messages := inbox.messages.filter (fun message => message.entryId ≠ entryId)
    maxEpoch := epoch }
  := by
  obtain ⟨message, hmessage, rfl⟩ := List.mem_map.mp hmem
  rcases Nat.lt_or_ge epoch inbox.maxEpoch with hlt | hle
  · rw [InboxState.ack, guardEpoch_of_lt hlt] at hack
    cases hack
  · rw [InboxState.ack, guardEpoch_of_le hle] at hack
    simp only [bind, Except.bind] at hack
    rw [show InboxState.claimed? { inbox with maxEpoch := epoch } message.entryId
      = some message from h.claimed? hmessage] at hack
    cases hack
    rw [← h.without hmessage]
    rfl

/-- A quarantine of a delivered entry that returns has removed and recorded it. -/
theorem AllDelivered.quarantine (h : AllDelivered inbox) (hmem : entryId ∈ inbox.pendingIds)
    (hquarantine : inbox.quarantine entryId reason epoch = .ok inbox') :
  ∃ record : QuarantinedEntry, record.entryId = entryId ∧ inbox' = { inbox with
    messages := inbox.messages.filter (fun message => message.entryId ≠ entryId)
    quarantined := inbox.quarantined ++ [record]
    maxEpoch := epoch }
  := by
  obtain ⟨message, hmessage, rfl⟩ := List.mem_map.mp hmem
  rcases Nat.lt_or_ge epoch inbox.maxEpoch with hlt | hle
  · rw [InboxState.quarantine, guardEpoch_of_lt hlt] at hquarantine
    cases hquarantine
  · rw [InboxState.quarantine, guardEpoch_of_le hle] at hquarantine
    simp only [bind, Except.bind] at hquarantine
    rw [show InboxState.claimed? { inbox with maxEpoch := epoch } message.entryId
      = some message from h.claimed? hmessage] at hquarantine
    cases hquarantine
    rw [← h.without hmessage]
    exact ⟨_, rfl, rfl⟩

/-- Acks and quarantines raise by fencing, which a current epoch does not meet. -/
theorem ack_eq_error {error : OrchestrationError} (h : inbox.ack entryId epoch = .error error) :
  error.isStaleEpoch = true ∧ epoch < inbox.maxEpoch
  := by
  rcases Nat.lt_or_ge epoch inbox.maxEpoch with hlt | hle
  · rw [InboxState.ack, guardEpoch_of_lt hlt] at h
    cases h
    exact ⟨rfl, hlt⟩
  · rw [InboxState.ack, guardEpoch_of_le hle] at h
    simp only [bind, Except.bind] at h
    split at h
    · cases h
    · cases h

theorem quarantine_eq_error {error : OrchestrationError}
    (h : inbox.quarantine entryId reason epoch = .error error) :
  error.isStaleEpoch = true ∧ epoch < inbox.maxEpoch
  := by
  rcases Nat.lt_or_ge epoch inbox.maxEpoch with hlt | hle
  · rw [InboxState.quarantine, guardEpoch_of_lt hlt] at h
    cases h
    exact ⟨rfl, hlt⟩
  · rw [InboxState.quarantine, guardEpoch_of_le hle] at h
    simp only [bind, Except.bind] at h
    split at h
    · cases h
    · cases h

end InboxState

open SessionState (Observes)

/-! ### What an apply does -/

namespace MergeState

variable {services : MergeServices} {call : MergeCall} {state : MergeState}

/-- An apply that returns has landed, whatever its bookkeeping did. One that raises other than
by fencing has changed nothing. -/
theorem ensures_applyInboxDataPoints (h : Agrees state.mirror state.store)
    (dataPoints : List BaseDataPoint) :
  Raising.Ensures (state.applyInboxDataPoints services call dataPoints)
    (fun state' => call.faults.apply = none ∧ Agrees state'.mirror state'.store
      ∧ ∀ observed, (observed ∈ dataPoints ∨ Observes state.store.entries observed) →
        Observes state'.store.entries observed)
    (fun error state' => Agrees state'.mirror state'.store
      ∧ (∀ observed, Observes state.store.entries observed →
        Observes state'.store.entries observed)
      ∧ (error.isStaleEpoch = false → call.faults.apply = some error ∧ state' = state))
  := by
  have hbatch : (dataPoints.map (fun dp => (⟨none, dp⟩ : Emitted))).map Emitted.dataPoint
      = dataPoints := by
    rw [List.map_map]
    apply List.map_id
  rw [applyInboxDataPoints]
  simp only [hbatch]
  split
  · rename_i error written hwrite
    rw [write_eq_error h hwrite, Raising.ensures_error]
    refine ⟨h, fun _ hobserved => hobserved, ?_⟩
    intro hstale
    rcases write_rejected h hwrite with hfault | ⟨hfenced, -⟩
    · exact ⟨hfault, rfl⟩
    · rw [hstale] at hfenced
      cases hfenced
  · rename_i result written hwrite
    obtain ⟨⟨revision, hstore⟩, hagrees, -, -⟩ := write_eq_ok h hwrite
    have hfault := write_landed hwrite
    obtain ⟨hmirror', hstore'⟩ := @mergeBookkeeping_frame services call written
      (dataPoints.map (fun dp => (⟨none, dp⟩ : Emitted))) result.outcomes
    have hobserves : ∀ observed, (observed ∈ dataPoints ∨ Observes state.store.entries observed) →
        Observes written.store.entries observed :=
      fun observed => SessionState.observes_write hstore
    rw [← hmirror', ← hstore'] at hagrees
    rw [← hstore'] at hobserves
    split
    · rename_i booked hbook
      rw [hbook] at hagrees hobserves
      exact ⟨hfault, hagrees, hobserves⟩
    · rename_i error booked hbook
      rw [hbook] at hagrees hobserves
      split
      · rename_i hstale
        refine ⟨hagrees, fun observed hobserved => hobserves observed (Or.inr hobserved), ?_⟩
        intro hfenced
        rw [hstale] at hfenced
        cases hfenced
      · exact ⟨hfault, hagrees, hobserves⟩

/-- An apply of a current epoch that no fencing meets raises by none. -/
theorem applyInboxDataPoints_unfenced (h : Agrees state.mirror state.store)
    (hfaults : call.faults.Unfenced call.epoch) (hcurrent : state.Current call.epoch)
    (dataPoints : List BaseDataPoint) :
  Raising.Ensures (state.applyInboxDataPoints services call dataPoints)
    (fun state' => state'.Current call.epoch)
    (fun error state' => error.isStaleEpoch = false ∧ state'.Current call.epoch)
  := by
  rw [applyInboxDataPoints]
  split
  · rename_i error written hwrite
    rw [write_eq_error h hwrite, Raising.ensures_error]
    refine ⟨?_, hcurrent⟩
    rcases write_rejected h hwrite with hfault | ⟨-, hlt⟩
    · apply hfaults.apply error hfault
    · exact absurd hcurrent.store (Nat.not_le.mpr hlt)
  · rename_i result written hwrite
    obtain ⟨⟨revision, hstore⟩, -, -, hframe⟩ := write_eq_ok h hwrite
    have hwritten : written.Current call.epoch := by
      have hle : written.store.maxEpoch ≤ call.epoch := by
        rcases Nat.lt_or_ge call.epoch state.store.maxEpoch with hlt | hle
        · exact absurd hcurrent.store (Nat.not_le.mpr hlt)
        · rw [SessionState.write_of_le hle rfl, Except.ok.injEq, Prod.mk.injEq] at hstore
          rw [← hstore.2]
      rw [hframe] at hle ⊢
      exact ⟨hle, hcurrent.audit, hcurrent.archive⟩
    obtain ⟨hbooked, hunfenced⟩ := @mergeBookkeeping_unfenced services call written hfaults
      hwritten (dataPoints.map (fun dp => (⟨none, dp⟩ : Emitted))) result.outcomes
    split
    · rename_i booked hbook
      rw [hbook] at hbooked
      apply hbooked
    · rename_i error booked hbook
      rw [hbook] at hbooked hunfenced
      rw [if_neg]
      · apply hbooked
      · rw [hunfenced error rfl]
        decide

end MergeState

/-! ### Dispositions -/

/-- What a drain makes of an entry: the dispositions its telemetry counts. -/
inductive Disposition where
  | applied
  | quarantined
  | redelivered
  deriving DecidableEq

/-- A valid entry as it was delivered. -/
def InboxEntry.delivered (entry : InboxEntry) : DeliveredInboxEntry :=
  .entry entry.entryId entry.dataPoint entry.deliveryCount

/-- Whether an entry is poison. -/
def DeliveredInboxEntry.isPoison (entry : DeliveredInboxEntry) : Bool := entry.valid?.isNone

namespace DrainCall

/-- The valid entries are applied in one batch, and the apply of the batch is not to raise. -/
def batched (call : DrainCall) (delivered : List DeliveredInboxEntry) : Bool :=
  1 < (delivered.filterMap DeliveredInboxEntry.valid?).length
    && call.batch.faults.apply.isNone

/-- What a drain that applied the valid entries in one batch, or did not, makes of an entry. -/
def disposition (call : DrainCall) (batched : Bool) : DeliveredInboxEntry → Disposition
  | .poison .. => .quarantined
  | .entry entryId _ deliveryCount =>
    if batched || (call.single entryId).faults.apply.isNone then .applied
    else if call.maxInboxDeliveries ≤ deliveryCount then .quarantined
    else .redelivered

/-- The ids of the entries of one disposition. -/
def idsOf (call : DrainCall) (batched : Bool) (disposition : Disposition)
    (entries : List DeliveredInboxEntry) : List ℕ :=
  (entries.filter (fun entry => call.disposition batched entry = disposition)).map
    DeliveredInboxEntry.entryId

/-- The ids of the entries that do not stay pending. -/
def removed (call : DrainCall) (batched : Bool) (entries : List DeliveredInboxEntry) : List ℕ :=
  (entries.filter (fun entry => call.disposition batched entry ≠ .redelivered)).map
    DeliveredInboxEntry.entryId

/-- No call of the drain is fenced off. -/
structure Unfenced (call : DrainCall) : Prop where
  batch : call.batch.faults.Unfenced call.epoch
  single : ∀ entryId, (call.single entryId).faults.Unfenced call.epoch
  ack : ∀ entryId, call.ackFenced entryId = none
  quarantine : ∀ entryId, (call.quarantine entryId).fenced = none
  audit : ∀ entryId, (call.quarantine entryId).auditFenced = none

end DrainCall

/-- No part of the session, the inbox included, has accepted a higher epoch. -/
structure DrainState.Current (epoch : Epoch) (state : DrainState) : Prop where
  merge : state.toMergeState.Current epoch
  inbox : state.inbox.maxEpoch ≤ epoch

/-! ### One entry settled -/

/-- What holds of an entry that is settled: applied, its observation is in the store, and an
apply of it alone did not raise by fencing. -/
def Accounted (call : DrainCall) (batched : Bool) (state : DrainState) :
    DeliveredInboxEntry → Prop
  | .poison .. => True
  | .entry entryId dataPoint deliveryCount =>
    (call.disposition batched (.entry entryId dataPoint deliveryCount) = .applied →
      Observes state.store.entries dataPoint)
    ∧ (batched = false → ∀ error, (call.single entryId).faults.apply = some error →
      error.isStaleEpoch = false)

/-- Some of the delivered entries are settled, and the others are pending as they were
delivered. `undisturbed` says that no fencing meets the drain. -/
structure Progress (call : DrainCall) (inbox : InboxState) (batched : Bool) (undisturbed : Prop)
    (settled : List DeliveredInboxEntry) (state : DrainState) : Prop where
  agrees : Agrees state.mirror state.store
  messages : state.inbox.messages
    = inbox.messages.filter (fun message => message.entryId ∉ call.removed batched settled)
  quarantined : ∃ records, state.inbox.quarantined = inbox.quarantined ++ records
    ∧ records.map QuarantinedEntry.entryId = call.idsOf batched .quarantined settled
  accounted : ∀ entry ∈ settled, Accounted call batched state entry
  acks : ∀ entryId ∈ call.idsOf batched .applied settled, call.ackFenced entryId = none
  quarantines : ∀ entryId ∈ call.idsOf batched .quarantined settled,
    (call.quarantine entryId).fenced = none
  current : undisturbed → state.Current call.epoch

namespace DrainCall

variable {call : DrainCall} {batched : Bool} {entries : List DeliveredInboxEntry}
  {entry : DeliveredInboxEntry}

theorem idsOf_concat (disposition : Disposition) :
  call.idsOf batched disposition (entries ++ [entry])
    = call.idsOf batched disposition entries
      ++ if call.disposition batched entry = disposition then [entry.entryId] else []
  := by
  rw [idsOf, List.filter_append, List.map_append, ← idsOf, List.filter_singleton]
  by_cases h : call.disposition batched entry = disposition
  · simp [h]
  · simp [h]

theorem removed_concat (h : call.disposition batched entry ≠ .redelivered) :
  call.removed batched (entries ++ [entry]) = call.removed batched entries ++ [entry.entryId]
  := by
  rw [removed, List.filter_append, List.map_append, ← removed, List.filter_singleton]
  simp [h]

theorem removed_concat_redelivered (h : call.disposition batched entry = .redelivered) :
  call.removed batched (entries ++ [entry]) = call.removed batched entries
  := by
  rw [removed, List.filter_append, List.map_append, ← removed, List.filter_singleton]
  simp [h]

theorem removed_subset :
  call.removed batched entries ⊆ entries.map DeliveredInboxEntry.entryId
  := by
  apply List.map_subset
  apply List.filter_subset_self

end DrainCall

namespace Progress

variable {call : DrainCall} {inbox inbox' : InboxState} {batched : Bool} {undisturbed : Prop}
  {settled : List DeliveredInboxEntry} {state : DrainState} {entry : DeliveredInboxEntry}

theorem allDelivered (h : Progress call inbox batched undisturbed settled state)
    (hinbox : inbox.AllDelivered) :
  state.inbox.AllDelivered
  := by
  constructor
  · intro message hmem
    rw [h.messages] at hmem
    apply hinbox.claimed message (List.mem_of_mem_filter hmem)
  · rw [InboxState.pendingIds, h.messages]
    apply List.Nodup.sublist _ hinbox.nodup
    apply List.Sublist.map
    apply List.filter_sublist

/-- An entry that is not settled yet is pending. -/
theorem pending (h : Progress call inbox batched undisturbed settled state)
    {entryId : ℕ} (hmem : entryId ∈ inbox.pendingIds)
    (hnew : entryId ∉ settled.map DeliveredInboxEntry.entryId) :
  entryId ∈ state.inbox.pendingIds
  := by
  obtain ⟨message, hmessage, rfl⟩ := List.mem_map.mp hmem
  apply List.mem_map_of_mem
  rw [h.messages, List.mem_filter]
  use hmessage
  apply decide_eq_true
  intro hsettled
  exact hnew (DrainCall.removed_subset hsettled)

/-- What was pending without an entry that is removed as well. -/
theorem messages_concat (h : Progress call inbox batched undisturbed settled state)
    (hdisposition : call.disposition batched entry ≠ .redelivered) :
  state.inbox.messages.filter (fun message => message.entryId ≠ entry.entryId)
    = inbox.messages.filter
      (fun message => message.entryId ∉ call.removed batched (settled ++ [entry]))
  := by
  rw [h.messages, List.filter_filter, DrainCall.removed_concat hdisposition]
  congr 1
  funext message
  simp [and_comm]

/-- Merging leaves the progress of a drain as it is. -/
theorem merged (h : Progress call inbox batched undisturbed settled state) {merged : MergeState}
    (hagrees : Agrees merged.mirror merged.store)
    (hobserves : ∀ observed, Observes state.store.entries observed →
      Observes merged.store.entries observed)
    (hcurrent : undisturbed → merged.Current call.epoch) :
  Progress call inbox batched undisturbed settled { state with toMergeState := merged }
  := by
  constructor
  · exact hagrees
  · exact h.messages
  · exact h.quarantined
  · intro entry hmem
    have haccounted := h.accounted entry hmem
    cases entry with
    | poison _ _ _ _ => exact haccounted
    | entry _ dataPoint _ =>
        use fun hdisposition => hobserves dataPoint (haccounted.1 hdisposition)
        exact haccounted.2
  · exact h.acks
  · exact h.quarantines
  · intro hundisturbed
    exact ⟨hcurrent hundisturbed, (h.current hundisturbed).inbox⟩

/-- So does auditing. -/
theorem audited (h : Progress call inbox batched undisturbed settled state) {audit : AuditState}
    (haudit : undisturbed → audit.maxEpoch ≤ call.epoch) :
  Progress call inbox batched undisturbed settled { state with audit := audit }
  := by
  apply @merged _ _ _ _ _ _ h { state.toMergeState with audit := audit } h.agrees
  · intro observed hobserved
    exact hobserved
  · intro hundisturbed
    have hmerge := (h.current hundisturbed).merge
    exact ⟨hmerge.store, haudit hundisturbed, hmerge.archive⟩

/-- An applied entry is settled by its ack. -/
theorem acked (h : Progress call inbox batched undisturbed settled state)
    (hdisposition : call.disposition batched entry = .applied)
    (hentry : Accounted call batched state entry)
    (hunfenced : call.ackFenced entry.entryId = none)
    (hinbox : inbox' = { state.inbox with
      messages := state.inbox.messages.filter (fun message => message.entryId ≠ entry.entryId)
      maxEpoch := call.epoch }) :
  Progress call inbox batched undisturbed (settled ++ [entry]) { state with inbox := inbox' }
  := by
  subst hinbox
  constructor
  · exact h.agrees
  · apply h.messages_concat
    rw [hdisposition]
    decide
  · simpa only [DrainCall.idsOf_concat, hdisposition, reduceCtorEq, if_false, List.append_nil]
      using h.quarantined
  · intro other hmem
    rcases List.mem_append.mp hmem with hmem | hmem
    · apply h.accounted other hmem
    · rw [List.mem_singleton.mp hmem]
      apply hentry
  · intro entryId hmem
    rw [DrainCall.idsOf_concat, if_pos hdisposition] at hmem
    rcases List.mem_append.mp hmem with hmem | hmem
    · apply h.acks entryId hmem
    · rw [List.mem_singleton.mp hmem]
      apply hunfenced
  · simpa only [DrainCall.idsOf_concat, hdisposition, reduceCtorEq, if_false, List.append_nil]
      using h.quarantines
  · intro hundisturbed
    exact ⟨(h.current hundisturbed).merge, le_refl _⟩

/-- Poison, and an entry that could not be applied up to the cap, is settled by quarantine. -/
theorem quarantined_concat (h : Progress call inbox batched undisturbed settled state)
    (hdisposition : call.disposition batched entry = .quarantined)
    (hentry : Accounted call batched state entry)
    (hunfenced : (call.quarantine entry.entryId).fenced = none) {record : QuarantinedEntry}
    (hrecord : record.entryId = entry.entryId)
    (hinbox : inbox' = { state.inbox with
      messages := state.inbox.messages.filter (fun message => message.entryId ≠ entry.entryId)
      quarantined := state.inbox.quarantined ++ [record]
      maxEpoch := call.epoch }) :
  Progress call inbox batched undisturbed (settled ++ [entry]) { state with inbox := inbox' }
  := by
  subst hinbox
  constructor
  · exact h.agrees
  · apply h.messages_concat
    rw [hdisposition]
    decide
  · obtain ⟨records, hrecords, hids⟩ := h.quarantined
    use records ++ [record]
    constructor
    · simp only [hrecords, List.append_assoc]
    · rw [DrainCall.idsOf_concat, if_pos hdisposition, List.map_append, hids, ← hrecord]
      rfl
  · intro other hmem
    rcases List.mem_append.mp hmem with hmem | hmem
    · apply h.accounted other hmem
    · rw [List.mem_singleton.mp hmem]
      apply hentry
  · simpa only [DrainCall.idsOf_concat, hdisposition, reduceCtorEq, if_false, List.append_nil]
      using h.acks
  · intro entryId hmem
    rw [DrainCall.idsOf_concat, if_pos hdisposition] at hmem
    rcases List.mem_append.mp hmem with hmem | hmem
    · apply h.quarantines entryId hmem
    · rw [List.mem_singleton.mp hmem]
      apply hunfenced
  · intro hundisturbed
    exact ⟨(h.current hundisturbed).merge, le_refl _⟩

/-- An entry that could not be applied, but is below the cap, is settled by leaving it. -/
theorem redelivered (h : Progress call inbox batched undisturbed settled state)
    (hdisposition : call.disposition batched entry = .redelivered)
    (hentry : Accounted call batched state entry) :
  Progress call inbox batched undisturbed (settled ++ [entry]) state
  := by
  constructor
  · exact h.agrees
  · rw [DrainCall.removed_concat_redelivered hdisposition]
    exact h.messages
  · simpa only [DrainCall.idsOf_concat, hdisposition, reduceCtorEq, if_false, List.append_nil]
      using h.quarantined
  · intro other hmem
    rcases List.mem_append.mp hmem with hmem | hmem
    · apply h.accounted other hmem
    · rw [List.mem_singleton.mp hmem]
      apply hentry
  · simpa only [DrainCall.idsOf_concat, hdisposition, reduceCtorEq, if_false, List.append_nil]
      using h.acks
  · simpa only [DrainCall.idsOf_concat, hdisposition, reduceCtorEq, if_false, List.append_nil]
      using h.quarantines
  · exact h.current

end Progress

end Orcastork
