import Orcastork.Adapters.Memory.InboxCalls
import Mathlib.Data.List.Induction
import Mathlib.Data.List.Nodup

/-!
# Conservation in the inbox

Whatever is called on the inbox, and also where a call raises, every appended entry is in
exactly one place: pending, acked, or quarantined with one record. `History` remembers what was
appended and under which id, which entries the passes of `consume` and `reclaim` reached and which
were acked; it is kept beside the state and read by no operation.

A pass reaches the entries it presents, and the one whose payload makes it raise. The pending
entries fall into the delivered ones and, behind them, those no pass has reached, which carry
the ids from the first undelivered one on (`Split`). All conservation facts follow from that.
-/

namespace Orcastork

namespace InboxState

/-! ### The entries a call appends, reaches and acks -/

/-- The payload of an appending call, in its wire form. -/
def payload? (codec : InboxCodec) : InboxCall → Option String
  | .append dataPoint => some (codec.dumps dataPoint)
  | .appendSerialized payload => some payload
  | _ => none

/-- The entry a call appended, if it did: the id it was given, and its payload. -/
def appendedBy (codec : InboxCodec) (call : InboxCall)
    (reply : Except OrchestrationError InboxReply) : List (ℕ × String) :=
  match payload? codec call, reply with
  | some payload, .ok (.appended entryId) => [(entryId, payload)]
  | _, _ => []

/-- The messages a call reaches: never delivered ones up to the limit, or all delivered ones. -/
def reachedBy (codec : InboxCodec) (state : InboxState) : InboxCall → List Message
  | .consume maxEntries =>
    upToRejected codec.decode (limited (maxEntries.map Int.toNat)
      (state.messages.filter (fun message => message.claimed = false)))
  | .reclaim =>
    upToRejected codec.decode (state.messages.filter (fun message => message.claimed = true))
  | _ => []

/-- The entry a call acked, if it did: one that was pending before and is no longer. -/
def ackedBy (state : InboxState) (call : InboxCall) (state' : InboxState) : List ℕ :=
  match call with
  | .ack entryId _ =>
    if entryId ∈ state.pendingIds ∧ entryId ∉ state'.pendingIds then [entryId] else []
  | _ => []

end InboxState

open InboxState

/-- The id and the payload of a message. -/
def Message.sent (message : Message) : ℕ × String := (message.entryId, message.payload)

/-- The id and the payload of a quarantined entry. -/
def QuarantinedEntry.sent (record : QuarantinedEntry) : ℕ × String :=
  (record.entryId, record.rawPayload)

/-- What has happened to the entries of an inbox. -/
structure History where
  /-- The ids and payloads of the appended entries, in append order. -/
  appended : List (ℕ × String)
  /-- The entries reached by passes, each as often as a pass reached it. -/
  reached : List ℕ
  /-- The entries in the order in which a pass first reached them. -/
  firstDelivered : List ℕ
  acked : List ℕ

namespace History

/-- Before any call. -/
def empty : History := ⟨[], [], [], []⟩

/-- The history after a call, with what the call returned and left. -/
def record (codec : InboxCodec) (history : History) (state : InboxState) (call : InboxCall)
    (outcome : Except OrchestrationError InboxReply × InboxState) : History :=
  let reached := (state.reachedBy codec call).map Message.entryId
  { appended := history.appended ++ appendedBy codec call outcome.1
    reached := history.reached ++ reached
    firstDelivered :=
      history.firstDelivered ++ reached.filter (fun entryId => entryId ∉ history.firstDelivered)
    acked := history.acked ++ state.ackedBy call outcome.2 }

end History

/-- An inbox with its history, after a call. -/
def recordedStep (codec : InboxCodec) (recorded : InboxState × History) (call : InboxCall) :
    InboxState × History :=
  let outcome := recorded.1.perform codec call
  (outcome.2, recorded.2.record codec recorded.1 call outcome)

/-- An inbox with its history, after the calls of a list. -/
def recordedAfter (codec : InboxCodec) (calls : List InboxCall) : InboxState × History :=
  calls.foldl (recordedStep codec) (.initial, .empty)

/-! ### The delivered and the undelivered entries -/

/-- The pending entries are the delivered ones and, behind them, the others. The entries up to
`firstDelivered.length` have been delivered, in the order of their ids, and are pending, acked
or quarantined; their counts are how often passes reached them. -/
structure Split (state : InboxState) (history : History) (old fresh : List Message) : Prop where
  messages : state.messages = old ++ fresh
  old_claimed : ∀ message ∈ old, message.claimed = true
  fresh_unclaimed : ∀ message ∈ fresh, message.claimed = false
  fresh_count : ∀ message ∈ fresh, message.deliveryCount = 0
  fresh_ids : fresh.map Message.entryId
    = List.range' history.firstDelivered.length fresh.length
  nextId : state.nextId = history.firstDelivered.length + fresh.length
  firstDelivered : history.firstDelivered = List.range history.firstDelivered.length
  places : (old.map Message.entryId ++ history.acked
    ++ state.quarantined.map QuarantinedEntry.entryId).Perm history.firstDelivered
  counts : ∀ message ∈ old, message.deliveryCount = history.reached.count message.entryId
  recorded : ∀ record ∈ state.quarantined,
    record.deliveryCount = history.reached.count record.entryId
  reached : ∀ entryId ∈ history.reached, entryId ∈ history.firstDelivered

theorem split_initial :
  Split .initial .empty [] []
  := by
  constructor <;> simp [InboxState.initial, History.empty]

namespace Split

variable {codec : InboxCodec} {state : InboxState} {history : History} {old fresh : List Message}

theorem mem_firstDelivered (h : Split state history old fresh) {entryId : ℕ} :
  entryId ∈ history.firstDelivered ↔ entryId < history.firstDelivered.length
  := by
  rw [h.firstDelivered, List.length_range, List.mem_range]

theorem nodup_places (h : Split state history old fresh) :
  (old.map Message.entryId ++ history.acked
    ++ state.quarantined.map QuarantinedEntry.entryId).Nodup
  := by
  rw [h.places.nodup_iff, h.firstDelivered]
  apply List.nodup_range

/-- The pending entries have ids of their own. -/
theorem nodup_pendingIds (h : Split state history old fresh) :
  state.pendingIds.Nodup
  := by
  have hplaces := h.nodup_places
  rw [List.append_assoc] at hplaces
  rw [pendingIds, h.messages, List.map_append, h.fresh_ids]
  apply List.nodup_append.mpr
  refine ⟨(List.nodup_append.mp hplaces).1, List.nodup_range', ?_⟩
  rintro entryId hmem _ hmem' rfl
  have hdelivered : entryId ∈ history.firstDelivered := by
    rw [← h.places.mem_iff]
    apply List.mem_append_left
    apply List.mem_append_left
    apply hmem
  rw [h.mem_firstDelivered] at hdelivered
  rw [List.mem_range'_1] at hmem'
  omega

theorem parts (h : Split state history old fresh) :
  Parts state old fresh
  := ⟨h.messages, h.old_claimed, h.fresh_unclaimed, h.nodup_pendingIds⟩

/-- An appended entry is one more that no pass has reached. -/
theorem append (h : Split state history old fresh) (payload : String)
    (appended : List (ℕ × String)) :
  Split (state.append payload).2 { history with appended := appended } old
    (fresh ++ [⟨state.nextId, payload, 0, false⟩])
  := by
  constructor
  · rw [InboxState.append, h.messages, List.append_assoc]
  · apply h.old_claimed
  · intro message hmem
    rcases List.mem_append.mp hmem with hmem | hmem
    · apply h.fresh_unclaimed message hmem
    · rw [List.mem_singleton.mp hmem]
  · intro message hmem
    rcases List.mem_append.mp hmem with hmem | hmem
    · apply h.fresh_count message hmem
    · rw [List.mem_singleton.mp hmem]
  · rw [List.map_append, List.length_append, ← List.range'_append_1, h.fresh_ids, h.nextId]
    rfl
  · rw [InboxState.append, List.length_append]
    simp only [h.nextId]
    rfl
  · apply h.firstDelivered
  · apply h.places
  · apply h.counts
  · apply h.recorded
  · apply h.reached

/-- A consuming pass moves the messages it reaches to the delivered ones. -/
theorem consume (h : Split state history old fresh) (maxEntries : Option ℤ) :
  ∃ rest, Split (state.perform codec (.consume maxEntries)).2
    (history.record codec state (.consume maxEntries)
      (state.perform codec (.consume maxEntries)))
    (old ++ (state.reachedBy codec (.consume maxEntries)).map claim) rest
  := by
  obtain ⟨rest, hfresh, hmessages, -⟩ : ∃ rest, fresh = _ ∧ _ ∧ _ :=
    @consumeLoop_fresh codec.decode (maxEntries.map Int.toNat) fresh h.fresh_unclaimed
  have hreached : state.reachedBy codec (.consume maxEntries)
      = upToRejected codec.decode (limited (maxEntries.map Int.toNat) fresh) := by
    rw [reachedBy, h.parts.filter_unclaimed]
  rw [← hreached] at hfresh hmessages
  have hstate : (state.perform codec (.consume maxEntries)).2
      = { state with messages :=
            old ++ ((state.reachedBy codec (.consume maxEntries)).map claim ++ rest) } := by
    rw [← hmessages, perform, InboxState.consume, h.messages, consumeLoop_old h.old_claimed]
  have hhistory : history.record codec state (.consume maxEntries)
      (state.perform codec (.consume maxEntries))
      = ⟨history.appended ++ [],
          history.reached ++ (state.reachedBy codec (.consume maxEntries)).map Message.entryId,
          history.firstDelivered
            ++ ((state.reachedBy codec (.consume maxEntries)).map Message.entryId).filter
              (fun entryId => entryId ∉ history.firstDelivered),
          history.acked ++ []⟩ := rfl
  generalize state.reachedBy codec (.consume maxEntries) = reached at *
  subst hfresh
  obtain ⟨hids, hrest⟩ := ids_append h.fresh_ids
  have hnew : ∀ entryId ∈ reached.map Message.entryId, entryId ∉ history.firstDelivered := by
    intro entryId hmem
    rw [hids, List.mem_range'_1] at hmem
    rw [h.mem_firstDelivered]
    omega
  have hnodup : (reached.map Message.entryId).Nodup := by
    rw [hids]
    exact List.nodup_range'
  rw [List.append_nil, List.append_nil, List.filter_eq_self.mpr (by simpa using hnew)] at hhistory
  use rest
  rw [hhistory, hstate]
  constructor
  · simp only [List.append_assoc]
  · intro message hmem
    rcases List.mem_append.mp hmem with hmem | hmem
    · apply h.old_claimed message hmem
    · obtain ⟨message', -, rfl⟩ := List.mem_map.mp hmem
      rfl
  · intro message hmem
    apply h.fresh_unclaimed message (List.mem_append_right _ hmem)
  · intro message hmem
    apply h.fresh_count message (List.mem_append_right _ hmem)
  · rw [hrest, List.length_append, List.length_map]
  · simp only [h.nextId, List.length_append, List.length_map]
    omega
  · simp only [List.length_append, List.length_map]
    rw [List.range_eq_range', ← List.range'_append_1, Nat.zero_add, ← hids, ← List.range_eq_range',
      ← h.firstDelivered]
  · have hplaces := h.places.append_right (reached.map Message.entryId)
    apply List.Perm.trans _ hplaces
    simp only [List.map_append, List.map_map, List.append_assoc]
    apply List.Perm.append_left
    rw [← List.append_assoc history.acked]
    apply List.perm_append_comm
  · intro message hmem
    rw [List.count_append]
    rcases List.mem_append.mp hmem with hmem | hmem
    · have hzero : (reached.map Message.entryId).count message.entryId = 0 := by
        rw [List.count_eq_zero]
        intro hreach
        apply hnew _ hreach
        rw [← h.places.mem_iff]
        simp only [List.mem_append]
        left
        left
        apply List.mem_map_of_mem hmem
      rw [h.counts message hmem, hzero, Nat.add_zero]
    · obtain ⟨message', hmem', rfl⟩ := List.mem_map.mp hmem
      have hzero : history.reached.count message'.entryId = 0 := by
        rw [List.count_eq_zero]
        intro hreach
        apply hnew _ (List.mem_map_of_mem hmem') (h.reached _ hreach)
      have hone : (reached.map Message.entryId).count message'.entryId = 1 :=
        List.count_eq_one_of_mem hnodup (List.mem_map_of_mem hmem')
      rw [claim, h.fresh_count message' (List.mem_append_left _ hmem'), hzero, hone]
  · intro record hmem
    have hzero : (reached.map Message.entryId).count record.entryId = 0 := by
      rw [List.count_eq_zero]
      intro hreach
      apply hnew _ hreach
      rw [← h.places.mem_iff]
      simp only [List.mem_append]
      right
      apply List.mem_map_of_mem hmem
    rw [List.count_append, h.recorded record hmem, hzero, Nat.add_zero]
  · intro entryId hmem
    rcases List.mem_append.mp hmem with hmem | hmem
    · apply List.mem_append_left _ (h.reached entryId hmem)
    · apply List.mem_append_right _ hmem

/-- A reclaiming pass counts the messages it reaches once more. -/
theorem reclaim (h : Split state history old fresh) :
  ∃ rest, Split (state.perform codec .reclaim).2
    (history.record codec state .reclaim (state.perform codec .reclaim))
    ((state.reachedBy codec .reclaim).map redeliver ++ rest) fresh
  := by
  obtain ⟨rest, hold, hmessages, -⟩ : ∃ rest, old = _ ∧ _ ∧ _ :=
    @reclaimLoop_old codec.decode old fresh h.old_claimed h.fresh_unclaimed
  have hreached : state.reachedBy codec .reclaim = upToRejected codec.decode old := by
    rw [reachedBy, h.parts.filter_claimed]
  rw [← hreached] at hold hmessages
  have hstate : (state.perform codec .reclaim).2
      = { state with messages := (state.reachedBy codec .reclaim).map redeliver ++ rest ++ fresh } := by
    rw [← hmessages, perform, InboxState.reclaim, h.messages]
  have hhistory : history.record codec state .reclaim (state.perform codec .reclaim)
      = ⟨history.appended ++ [],
          history.reached ++ (state.reachedBy codec .reclaim).map Message.entryId,
          history.firstDelivered
            ++ ((state.reachedBy codec .reclaim).map Message.entryId).filter
              (fun entryId => entryId ∉ history.firstDelivered),
          history.acked ++ []⟩ := rfl
  generalize state.reachedBy codec .reclaim = reached at *
  subst hold
  have hknown : ∀ entryId ∈ reached.map Message.entryId, entryId ∈ history.firstDelivered := by
    intro entryId hmem
    rw [← h.places.mem_iff, List.map_append]
    simp only [List.mem_append]
    left
    left
    left
    apply hmem
  have hplaces := h.nodup_places
  rw [List.map_append, List.append_assoc, List.append_assoc] at hplaces
  obtain ⟨hnodup, -, hothers⟩ := List.nodup_append.mp hplaces
  have hzero : ∀ entryId ∈ rest.map Message.entryId
      ++ (history.acked ++ state.quarantined.map QuarantinedEntry.entryId),
      (reached.map Message.entryId).count entryId = 0 := by
    intro entryId hmem
    rw [List.count_eq_zero]
    intro hreach
    apply hothers entryId hreach entryId hmem rfl
  rw [List.append_nil, List.append_nil, List.filter_eq_nil_iff.mpr (by simpa using hknown),
    List.append_nil] at hhistory
  use rest
  rw [hhistory, hstate]
  constructor
  · rfl
  · intro message hmem
    rcases List.mem_append.mp hmem with hmem | hmem
    · obtain ⟨message', hmem', rfl⟩ := List.mem_map.mp hmem
      apply h.old_claimed message' (List.mem_append_left _ hmem')
    · apply h.old_claimed message (List.mem_append_right _ hmem)
  · apply h.fresh_unclaimed
  · apply h.fresh_count
  · apply h.fresh_ids
  · apply h.nextId
  · apply h.firstDelivered
  · have hids : (reached.map redeliver ++ rest).map Message.entryId
        = (reached ++ rest).map Message.entryId := by
      rw [List.map_append, List.map_append, List.map_map]
      rfl
    rw [hids]
    apply h.places
  · intro message hmem
    rw [List.count_append]
    rcases List.mem_append.mp hmem with hmem | hmem
    · obtain ⟨message', hmem', rfl⟩ := List.mem_map.mp hmem
      have hone : (reached.map Message.entryId).count message'.entryId = 1 :=
        List.count_eq_one_of_mem hnodup (List.mem_map_of_mem hmem')
      rw [redeliver, h.counts message' (List.mem_append_left _ hmem'), hone]
    · rw [h.counts message (List.mem_append_right _ hmem), hzero, Nat.add_zero]
      apply List.mem_append_left _ (List.mem_map_of_mem hmem)
  · intro record hmem
    rw [List.count_append, h.recorded record hmem, hzero, Nat.add_zero]
    apply List.mem_append_right _ (List.mem_append_right _ (List.mem_map_of_mem hmem))
  · intro entryId hmem
    rcases List.mem_append.mp hmem with hmem | hmem
    · apply h.reached entryId hmem
    · apply hknown entryId hmem

theorem setEpoch (h : Split state history old fresh) (epoch : Epoch) :
  Split { state with maxEpoch := epoch } history old fresh
  := { h with }

/-- Removing a delivered entry, with its id put where disposed entries are kept. -/
theorem dispose {before after : List Message} {message : Message}
    (h : Split state history (before ++ message :: after) fresh) {acked : List ℕ}
    {quarantined : List QuarantinedEntry} {epoch : Epoch}
    (hplaces : (acked ++ quarantined.map QuarantinedEntry.entryId).Perm
      (message.entryId :: (history.acked ++ state.quarantined.map QuarantinedEntry.entryId)))
    (hrecorded : ∀ record ∈ quarantined,
      record.deliveryCount = history.reached.count record.entryId) :
  Split { state with messages := before ++ after ++ fresh, quarantined := quarantined, maxEpoch := epoch }
    { history with acked := acked } (before ++ after) fresh
  := by
  constructor
  · rfl
  · intro message' hmem
    apply h.old_claimed message'
    simp only [List.mem_append, List.mem_cons] at hmem ⊢
    tauto
  · apply h.fresh_unclaimed
  · apply h.fresh_count
  · apply h.fresh_ids
  · apply h.nextId
  · apply h.firstDelivered
  · apply List.Perm.trans _ h.places
    simp only [List.map_append, List.map_cons, List.append_assoc, List.cons_append]
    apply List.Perm.append_left
    apply (hplaces.append_left _).trans
    apply List.perm_middle
  · intro message' hmem
    apply h.counts message'
    simp only [List.mem_append, List.mem_cons] at hmem ⊢
    tauto
  · apply hrecorded
  · apply h.reached

/-- A call that appends nothing, reaches nothing and removes nothing leaves the history. -/
theorem record_eq {call : InboxCall} {outcome : Except OrchestrationError InboxReply × InboxState}
    (hpayload : payload? codec call = none) (hreached : state.reachedBy codec call = [])
    (hpending : outcome.2.pendingIds = state.pendingIds) :
  history.record codec state call outcome = history
  := by
  have happended : appendedBy codec call outcome.1 = [] := by
    simp only [appendedBy, hpayload]
  have hacked : state.ackedBy call outcome.2 = [] := by
    cases call with
    | ack entryId epoch =>
        apply if_neg
        rintro ⟨hmem, hnot⟩
        rw [hpending] at hnot
        apply hnot hmem
    | _ => rfl
  rw [History.record, happended, hreached, hacked, List.map_nil, List.filter_nil, List.append_nil,
    List.append_nil, List.append_nil, List.append_nil]

/-- An ack moves a delivered entry to the acked ones, or leaves every entry where it is. -/
theorem ack (h : Split state history old fresh) (entryId : ℕ) (epoch : Epoch) :
  ∃ old', Split (state.perform codec (.ack entryId epoch)).2
    (history.record codec state (.ack entryId epoch)
      (state.perform codec (.ack entryId epoch))) old' fresh
  := by
  rw [perform_ack]
  split
  · rw [record_eq]
    · use old
    · rfl
    · rfl
    · rfl
  cases hclaimed : state.claimed? entryId with
  | none =>
      use old
      rw [record_eq]
      · apply h.setEpoch
      · rfl
      · rfl
      · rfl
  | some message =>
      obtain ⟨before, after, rfl, rfl, hwithout⟩ := h.parts.claimed?_eq_some hclaimed
      simp only [hwithout]
      have hacked : state.ackedBy (.ack message.entryId epoch)
          { state with messages := before ++ after ++ fresh, maxEpoch := epoch }
          = [message.entryId] := by
        apply if_pos
        apply h.parts.removed
      have hhistory : history.record codec state (.ack message.entryId epoch)
          (.ok .done, { state with messages := before ++ after ++ fresh, maxEpoch := epoch })
          = { history with acked := history.acked ++ [message.entryId] } := by
        rw [History.record, hacked]
        simp only [appendedBy, payload?, reachedBy, List.map_nil, List.filter_nil, List.append_nil]
      rw [hhistory]
      use before ++ after
      apply h.dispose _ h.recorded
      rw [List.append_assoc]
      apply List.perm_middle

/-- A quarantine moves a delivered entry to the quarantined ones, with one record, or leaves
every entry where it is. -/
theorem quarantine (h : Split state history old fresh) (entryId : ℕ) (reason : String)
    (epoch : Epoch) :
  ∃ old', Split (state.perform codec (.quarantine entryId reason epoch)).2
    (history.record codec state (.quarantine entryId reason epoch)
      (state.perform codec (.quarantine entryId reason epoch))) old' fresh
  := by
  have hhistory : ∀ outcome, history.record codec state (.quarantine entryId reason epoch) outcome
      = history := by
    intro outcome
    simp only [History.record, appendedBy, payload?, reachedBy, ackedBy, List.map_nil,
      List.filter_nil, List.append_nil]
  rw [perform_quarantine, hhistory]
  split
  · use old
  cases hclaimed : state.claimed? entryId with
  | none =>
      use old
      apply h.setEpoch
  | some message =>
      obtain ⟨before, after, rfl, rfl, hwithout⟩ := h.parts.claimed?_eq_some hclaimed
      simp only [hwithout]
      use before ++ after
      apply h.dispose
      · rw [List.map_append, ← List.append_assoc]
        apply List.perm_append_singleton
      · intro record hmem
        rcases List.mem_append.mp hmem with hmem | hmem
        · apply h.recorded record hmem
        · rw [List.mem_singleton.mp hmem]
          apply h.counts message
          simp

/-- Every call keeps the pending entries split. -/
theorem step (h : Split state history old fresh) (call : InboxCall) :
  ∃ old' fresh', Split (recordedStep codec (state, history) call).1
    (recordedStep codec (state, history) call).2 old' fresh'
  := by
  cases call with
  | append dataPoint =>
      refine ⟨old, fresh ++ [⟨state.nextId, codec.dumps dataPoint, 0, false⟩], ?_⟩
      rw [recordedStep, History.record]
      simp only [reachedBy, ackedBy, List.map_nil, List.filter_nil, List.append_nil]
      apply h.append
  | appendSerialized payload =>
      refine ⟨old, fresh ++ [⟨state.nextId, payload, 0, false⟩], ?_⟩
      rw [recordedStep, History.record]
      simp only [reachedBy, ackedBy, List.map_nil, List.filter_nil, List.append_nil]
      apply h.append
  | consume maxEntries =>
      obtain ⟨rest, hsplit⟩ := @Split.consume codec state history old fresh h maxEntries
      exact ⟨_, rest, hsplit⟩
  | reclaim =>
      obtain ⟨rest, hsplit⟩ := @Split.reclaim codec state history old fresh h
      exact ⟨_, fresh, hsplit⟩
  | ack entryId epoch =>
      obtain ⟨old', hsplit⟩ := @Split.ack codec state history old fresh h entryId epoch
      exact ⟨old', fresh, hsplit⟩
  | quarantine entryId reason epoch =>
      obtain ⟨old', hsplit⟩ := @Split.quarantine codec state history old fresh h entryId reason epoch
      exact ⟨old', fresh, hsplit⟩
  | quarantined =>
      refine ⟨old, fresh, ?_⟩
      rw [recordedStep, record_eq]
      · apply h
      · rfl
      · rfl
      · rfl
  | pendingCount =>
      refine ⟨old, fresh, ?_⟩
      rw [recordedStep, record_eq]
      · apply h
      · rfl
      · rfl
      · rfl

end Split

/-- Whatever is called, the pending entries stay split. -/
theorem recordedAfter_split (codec : InboxCodec) (calls : List InboxCall) :
  ∃ old fresh, Split (recordedAfter codec calls).1 (recordedAfter codec calls).2 old fresh
  := by
  induction calls using List.reverseRecOn with
  | nil => exact ⟨[], [], split_initial⟩
  | append_singleton calls call ih =>
      obtain ⟨old, fresh, h⟩ := ih
      rw [recordedAfter, List.foldl_append]
      apply h.step

/-! ### What was appended -/

/-- A consuming pass leaves of the messages what claiming leaves. -/
theorem consumeLoop_map {α : Type} {f : Message → α} (hf : ∀ message, f (claim message) = f message)
    (decode : Decoder) (limit : Option ℕ) (messages : List Message) :
  (consumeLoop decode limit messages).2.map f = messages.map f
  := by
  induction messages generalizing limit with
  | nil => rfl
  | cons message messages ih =>
      rw [consumeLoop]
      split
      · rfl
      · split
        · rw [List.map_cons, List.map_cons, ih]
        · split
          · rw [List.map_cons, List.map_cons, hf]
          · rw [List.map_cons, List.map_cons, ih, hf]

/-- A reclaiming pass leaves of the messages what delivering them again leaves. -/
theorem reclaimLoop_map {α : Type} {f : Message → α}
    (hf : ∀ message, f (redeliver message) = f message) (decode : Decoder)
    (messages : List Message) :
  (reclaimLoop decode messages).2.map f = messages.map f
  := by
  induction messages with
  | nil => rfl
  | cons message messages ih =>
      rw [reclaimLoop]
      split
      · split
        · rw [List.map_cons, List.map_cons, hf]
        · rw [List.map_cons, List.map_cons, ih, hf]
      · rw [List.map_cons, List.map_cons, ih]

/-- The entries were given the ids in append order. What is pending is what was appended, in that
order, and so is what is quarantined. -/
structure Logged (state : InboxState) (appended : List (ℕ × String)) : Prop where
  ids : appended.map Prod.fst = List.range state.nextId
  pending : (state.messages.map Message.sent).Sublist appended
  quarantined : ∀ record ∈ state.quarantined, record.sent ∈ appended

theorem logged_initial :
  Logged .initial []
  := by
  constructor
  · rfl
  · apply List.Sublist.refl
  · nofun

namespace Logged

variable {codec : InboxCodec} {state : InboxState} {appended : List (ℕ × String)}

/-- An entry is appended under the next id. -/
theorem append (h : Logged state appended) (payload : String) :
  Logged (state.append payload).2 (appended ++ [(state.nextId, payload)])
  := by
  constructor
  · rw [List.map_append, h.ids]
    symm
    apply List.range_succ
  · rw [InboxState.append, List.map_append]
    apply h.pending.append (List.Sublist.refl _)
  · intro record hmem
    apply List.mem_append_left _ (h.quarantined record hmem)

/-- Every call leaves of the entries what was appended. -/
theorem step (h : Logged state appended) (call : InboxCall) :
  Logged (state.perform codec call).2
    (appended ++ appendedBy codec call (state.perform codec call).1)
  := by
  have hkept {state' : InboxState} (hnext : state'.nextId = state.nextId)
      (hmessages : (state'.messages.map Message.sent).Sublist (state.messages.map Message.sent))
      (hquarantined : ∀ record ∈ state'.quarantined, record.sent ∈ appended) :
      Logged state' (appended ++ []) := by
    rw [List.append_nil]
    constructor
    · rw [hnext]
      apply h.ids
    · apply hmessages.trans h.pending
    · apply hquarantined
  cases call with
  | append dataPoint => apply h.append
  | appendSerialized payload => apply h.append
  | consume maxEntries =>
      apply hkept
      · rfl
      · rw [perform, InboxState.consume, consumeLoop_map (fun _ => rfl)]
      · apply h.quarantined
  | reclaim =>
      apply hkept
      · rfl
      · rw [perform, InboxState.reclaim, reclaimLoop_map (fun _ => rfl)]
      · apply h.quarantined
  | ack entryId epoch =>
      rw [perform_ack]
      split
      · apply hkept
        · rfl
        · apply List.Sublist.refl
        · apply h.quarantined
      · split
        · apply hkept
          · rfl
          · apply List.Sublist.refl
          · apply h.quarantined
        · apply hkept
          · rfl
          · apply List.eraseP_sublist.map
          · apply h.quarantined
  | quarantine entryId reason epoch =>
      rw [perform_quarantine]
      split
      · apply hkept
        · rfl
        · apply List.Sublist.refl
        · apply h.quarantined
      · split
        · apply hkept
          · rfl
          · apply List.Sublist.refl
          · apply h.quarantined
        · rename_i message hclaimed
          obtain ⟨hmem, rfl, -⟩ := mem_of_claimed? hclaimed
          apply hkept
          · rfl
          · apply List.eraseP_sublist.map
          · intro record hrecord
            rcases List.mem_append.mp hrecord with hrecord | hrecord
            · apply h.quarantined record hrecord
            · rw [List.mem_singleton.mp hrecord]
              apply h.pending.subset (List.mem_map_of_mem hmem)
  | quarantined => apply hkept rfl (List.Sublist.refl _) h.quarantined
  | pendingCount => apply hkept rfl (List.Sublist.refl _) h.quarantined

end Logged

/-- Whatever is called, what was appended stays known. -/
theorem recordedAfter_logged (codec : InboxCodec) (calls : List InboxCall) :
  Logged (recordedAfter codec calls).1 (recordedAfter codec calls).2.appended
  := by
  induction calls using List.reverseRecOn with
  | nil => apply logged_initial
  | append_singleton calls call ih =>
      rw [recordedAfter, List.foldl_append]
      apply ih.step

/-! ### Conservation -/

/-- Where the appended entries are and how often they were delivered. -/
structure Conserved (state : InboxState) (history : History) : Prop where
  /-- Every entry was appended under an id of its own. -/
  ids : (history.appended.map Prod.fst).Nodup
  /-- Every appended entry is in one place, once. -/
  places : (state.pendingIds ++ history.acked
    ++ state.quarantined.map QuarantinedEntry.entryId).Perm (history.appended.map Prod.fst)
  /-- What is pending is as it was appended, and in that order. -/
  pending : (state.messages.map Message.sent).Sublist history.appended
  quarantined : ∀ record ∈ state.quarantined, record.sent ∈ history.appended
  /-- First deliveries come in append order. -/
  firstDelivered : history.firstDelivered <+: history.appended.map Prod.fst
  unclaimed_iff : ∀ message ∈ state.messages,
    message.claimed = false ↔ message.entryId ∉ history.firstDelivered
  counts : ∀ message ∈ state.messages,
    message.deliveryCount = history.reached.count message.entryId
  recorded : ∀ record ∈ state.quarantined,
    record.deliveryCount = history.reached.count record.entryId
  pendingCount : state.pendingCount + history.acked.length + state.quarantined.length
    = history.appended.length

/-- What a call may do to an inbox. -/
structure CallConserves (codec : InboxCodec) (state : InboxState) (call : InboxCall) : Prop where
  /-- An append is accepted. -/
  appends : ∀ payload, payload? codec call = some payload →
    ∃ entryId, appendedBy codec call (state.perform codec call).1 = [(entryId, payload)]
  unclaimed_kept : ∀ message ∈ state.messages, message.claimed = false →
    message.entryId ∈ (state.perform codec call).2.pendingIds
  reached_once : ((state.reachedBy codec call).map Message.entryId).Nodup
  /-- A pass presents the entries it reaches, with the delivery counts they then have. -/
  presents : ∀ entries, (state.perform codec call).1 = .ok (.delivered entries) →
    entries.map presented = (state.reachedBy codec call).map presentation
  /-- An accepted ack acks the delivered entry with its id, and no other. -/
  accepted_ack : ∀ entryId epoch, call = .ack entryId epoch → state.maxEpoch ≤ epoch →
    state.perform codec call
        = (.ok .done,
            { state with messages := state.keptUnder entryId, maxEpoch := epoch })
      ∧ state.ackedBy call (state.perform codec call).2
        = (state.deliveredUnder entryId).map Message.entryId
  /-- An accepted quarantine records the delivered entry with its id, and no other. -/
  accepted_quarantine : ∀ entryId reason epoch, call = .quarantine entryId reason epoch →
    state.maxEpoch ≤ epoch →
    state.perform codec call
      = (.ok .done,
          { state with
            messages := state.keptUnder entryId
            quarantined := state.quarantined ++ (state.deliveredUnder entryId).map
              (fun message => ⟨entryId, reason, message.deliveryCount, message.payload⟩)
            maxEpoch := epoch })
  stale_ack : ∀ entryId epoch, call = .ack entryId epoch → epoch < state.maxEpoch →
    state.perform codec call
      = (.error (.staleEpoch s!"epoch {epoch} is stale (current {state.maxEpoch})"), state)
  stale_quarantine : ∀ entryId reason epoch, call = .quarantine entryId reason epoch →
    epoch < state.maxEpoch →
    state.perform codec call
      = (.error (.staleEpoch s!"epoch {epoch} is stale (current {state.maxEpoch})"), state)

namespace Split

variable {codec : InboxCodec} {state : InboxState} {history : History} {old fresh : List Message}

theorem conserved (h : Split state history old fresh) (hlogged : Logged state history.appended) :
  Conserved state history
  := by
  have hids : history.appended.map Prod.fst
      = history.firstDelivered ++ fresh.map Message.entryId := by
    rw [hlogged.ids, h.nextId, List.range_eq_range', ← List.range'_append_1, Nat.zero_add,
      ← List.range_eq_range', ← h.firstDelivered, ← h.fresh_ids]
  have hplaces : (state.pendingIds ++ history.acked
      ++ state.quarantined.map QuarantinedEntry.entryId).Perm
        (history.appended.map Prod.fst) := by
    rw [pendingIds, h.messages, hids]
    apply List.Perm.trans _ (h.places.append_right (fresh.map Message.entryId))
    simp only [List.map_append, List.append_assoc]
    apply List.Perm.append_left
    rw [← List.append_assoc history.acked]
    apply List.perm_append_comm
  have hdelivered : ∀ message ∈ old, message.entryId ∈ history.firstDelivered := by
    intro message hmem
    rw [← h.places.mem_iff]
    apply List.mem_append_left
    apply List.mem_append_left
    apply List.mem_map_of_mem hmem
  have hfresh : ∀ message ∈ fresh, message.entryId ∉ history.firstDelivered := by
    intro message hmem
    have hid := List.mem_map_of_mem (f := Message.entryId) hmem
    rw [h.fresh_ids, List.mem_range'_1] at hid
    rw [h.mem_firstDelivered]
    omega
  constructor
  · rw [hlogged.ids]
    apply List.nodup_range
  · apply hplaces
  · apply hlogged.pending
  · apply hlogged.quarantined
  · rw [hids]
    apply List.prefix_append
  · intro message hmem
    rw [h.messages] at hmem
    rcases List.mem_append.mp hmem with hmem | hmem
    · simp [h.old_claimed message hmem, hdelivered message hmem]
    · simp [h.fresh_unclaimed message hmem, hfresh message hmem]
  · intro message hmem
    rw [h.messages] at hmem
    rcases List.mem_append.mp hmem with hmem | hmem
    · apply h.counts message hmem
    · rw [h.fresh_count message hmem, eq_comm, List.count_eq_zero]
      intro hreached
      apply hfresh message hmem (h.reached _ hreached)
  · apply h.recorded
  · have hlength := hplaces.length_eq
    simp only [List.length_append, List.length_map, pendingIds] at hlength
    apply hlength

/-- An entry no pass has reached is not removed. -/
theorem unclaimed_kept (h : Split state history old fresh) (call : InboxCall) {message : Message}
    (hmem : message ∈ state.messages) (hunclaimed : message.claimed = false) :
  message.entryId ∈ (state.perform codec call).2.pendingIds
  := by
  have hpending : message.entryId ∈ state.pendingIds := List.mem_map_of_mem hmem
  have hwithout : ∀ {entryId found}, state.claimed? entryId = some found →
      message.entryId ∈ (state.without entryId).map Message.entryId := by
    intro entryId found hfound
    obtain ⟨before, after, rfl, -, hwithout⟩ := h.parts.claimed?_eq_some hfound
    rw [hwithout]
    apply List.mem_map_of_mem
    apply List.mem_append_right
    rw [h.messages] at hmem
    rcases List.mem_append.mp hmem with hmem | hmem
    · rw [h.old_claimed message hmem] at hunclaimed
      cases hunclaimed
    · apply hmem
  cases call with
  | append dataPoint =>
      apply List.mem_map_of_mem
      apply List.mem_append_left _ hmem
  | appendSerialized payload =>
      apply List.mem_map_of_mem
      apply List.mem_append_left _ hmem
  | consume maxEntries =>
      rw [perform, InboxState.consume, pendingIds, consumeLoop_map (fun _ => rfl)]
      apply hpending
  | reclaim =>
      rw [perform, InboxState.reclaim, pendingIds, reclaimLoop_map (fun _ => rfl)]
      apply hpending
  | ack entryId epoch =>
      rw [perform_ack]
      split
      · apply hpending
      · split
        · apply hpending
        · rename_i found hfound
          apply hwithout hfound
  | quarantine entryId reason epoch =>
      rw [perform_quarantine]
      split
      · apply hpending
      · split
        · apply hpending
        · rename_i found hfound
          apply hwithout hfound
  | quarantined => apply hpending
  | pendingCount => apply hpending

/-- A pass reaches an entry once. -/
theorem reached_once (h : Split state history old fresh) (call : InboxCall) :
  ((state.reachedBy codec call).map Message.entryId).Nodup
  := by
  have hnodup := h.nodup_pendingIds
  rw [pendingIds, h.messages, List.map_append] at hnodup
  obtain ⟨hold, hfresh, -⟩ := List.nodup_append.mp hnodup
  cases call with
  | consume maxEntries =>
      obtain ⟨rest, hrest, -⟩ :=
        @consumeLoop_fresh codec.decode (maxEntries.map Int.toNat) fresh h.fresh_unclaimed
      rw [hrest, List.map_append] at hfresh
      rw [reachedBy, h.parts.filter_unclaimed]
      apply (List.nodup_append.mp hfresh).1
  | reclaim =>
      obtain ⟨rest, hrest, -⟩ :=
        @reclaimLoop_old codec.decode old fresh h.old_claimed h.fresh_unclaimed
      rw [hrest, List.map_append] at hold
      rw [reachedBy, h.parts.filter_claimed]
      apply (List.nodup_append.mp hold).1
  | _ => apply List.nodup_nil

theorem of_map_delivered {result : Except OrchestrationError (List DeliveredInboxEntry)}
    {entries : List DeliveredInboxEntry}
    (h : result.map InboxReply.delivered = .ok (.delivered entries)) :
  result = .ok entries
  := by
  cases result with
  | error error => cases h
  | ok delivered =>
      cases h
      rfl

/-- A pass that raises nothing presents what it reaches. -/
theorem presents (h : Split state history old fresh) (call : InboxCall)
    {entries : List DeliveredInboxEntry}
    (hreply : (state.perform codec call).1 = .ok (.delivered entries)) :
  entries.map presented = (state.reachedBy codec call).map presentation
  := by
  cases call with
  | append dataPoint => cases hreply
  | appendSerialized payload => cases hreply
  | consume maxEntries =>
      obtain ⟨rest, -, -, hpresents⟩ :=
        @consumeLoop_fresh codec.decode (maxEntries.map Int.toNat) fresh h.fresh_unclaimed
      rw [perform, InboxState.consume, h.messages, consumeLoop_old h.old_claimed] at hreply
      rw [reachedBy, h.parts.filter_unclaimed]
      apply hpresents
      apply of_map_delivered hreply
  | reclaim =>
      obtain ⟨rest, -, -, hpresents⟩ :=
        @reclaimLoop_old codec.decode old fresh h.old_claimed h.fresh_unclaimed
      rw [perform, InboxState.reclaim, h.messages] at hreply
      rw [reachedBy, h.parts.filter_claimed]
      apply hpresents
      apply of_map_delivered hreply
  | ack entryId epoch =>
      rw [perform_ack] at hreply
      split at hreply
      · cases hreply
      · split at hreply
        · cases hreply
        · cases hreply
  | quarantine entryId reason epoch =>
      rw [perform_quarantine] at hreply
      split at hreply
      · cases hreply
      · split at hreply
        · cases hreply
        · cases hreply
  | quarantined => cases hreply
  | pendingCount => cases hreply

/-- An accepted ack acks the delivered entry with its id. -/
theorem accepted_ack (h : Split state history old fresh) {entryId : ℕ} {epoch : Epoch}
    (hle : state.maxEpoch ≤ epoch) :
  state.perform codec (.ack entryId epoch)
      = (.ok .done,
          { state with messages := state.keptUnder entryId, maxEpoch := epoch })
    ∧ state.ackedBy (.ack entryId epoch) (state.perform codec (.ack entryId epoch)).2
      = (state.deliveredUnder entryId).map Message.entryId
  := by
  rw [perform_ack, if_neg (Nat.not_lt.mpr hle)]
  cases hclaimed : state.claimed? entryId with
  | none =>
      obtain ⟨hdelivered, hkept⟩ := h.parts.under_of_none hclaimed
      rw [hdelivered, hkept]
      use rfl
      apply if_neg
      rintro ⟨hmem, hnot⟩
      apply hnot hmem
  | some message =>
      obtain ⟨hdelivered, hkept⟩ := h.parts.under_of_some hclaimed
      rw [hdelivered, hkept]
      use rfl
      obtain ⟨before, after, rfl, rfl, hwithout⟩ := h.parts.claimed?_eq_some hclaimed
      simp only [hwithout]
      apply if_pos
      apply h.parts.removed

/-- An accepted quarantine records the delivered entry with its id. -/
theorem accepted_quarantine (h : Split state history old fresh) {entryId : ℕ} {reason : String}
    {epoch : Epoch} (hle : state.maxEpoch ≤ epoch) :
  state.perform codec (.quarantine entryId reason epoch)
    = (.ok .done,
        { state with
          messages := state.keptUnder entryId
          quarantined := state.quarantined ++ (state.deliveredUnder entryId).map
            (fun message => ⟨entryId, reason, message.deliveryCount, message.payload⟩)
          maxEpoch := epoch })
  := by
  rw [perform_quarantine, if_neg (Nat.not_lt.mpr hle)]
  cases hclaimed : state.claimed? entryId with
  | none =>
      obtain ⟨hdelivered, hkept⟩ := h.parts.under_of_none hclaimed
      rw [hdelivered, hkept, List.map_nil, List.append_nil]
  | some message =>
      obtain ⟨hdelivered, hkept⟩ := h.parts.under_of_some hclaimed
      rw [hdelivered, hkept, List.map_singleton]

theorem callConserves (h : Split state history old fresh) (call : InboxCall) :
  CallConserves codec state call
  := by
  constructor
  · intro payload hpayload
    use state.nextId
    cases call with
    | append dataPoint =>
        cases hpayload
        rfl
    | appendSerialized payload' =>
        cases hpayload
        rfl
    | _ => cases hpayload
  · intro message hmem hunclaimed
    apply h.unclaimed_kept call hmem hunclaimed
  · apply h.reached_once
  · intro entries hreply
    apply h.presents call hreply
  · rintro entryId epoch rfl hle
    apply h.accepted_ack hle
  · rintro entryId reason epoch rfl hle
    apply h.accepted_quarantine hle
  · rintro entryId epoch rfl hstale
    rw [perform_ack, if_pos hstale]
  · rintro entryId reason epoch rfl hstale
    rw [perform_quarantine, if_pos hstale]

end Split

/-- Whatever was called on the inbox, every appended entry is where it should be, and whatever is
called next keeps it from being lost. -/
theorem inbox_conserves (codec : InboxCodec) (calls : List InboxCall) :
  Conserved (recordedAfter codec calls).1 (recordedAfter codec calls).2
    ∧ ∀ call, CallConserves codec (recordedAfter codec calls).1 call
  := by
  obtain ⟨old, fresh, h⟩ := recordedAfter_split codec calls
  constructor
  · apply h.conserved (recordedAfter_logged codec calls)
  · apply h.callConserves

end Orcastork
