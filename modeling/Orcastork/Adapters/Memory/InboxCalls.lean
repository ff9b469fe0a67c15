import Orcastork.Adapters.Memory.Inbox
import Mathlib.Data.List.Nodup

/-!
# Calls on the inbox

The operations of the inbox as one inductive, and what the passes of `consume` and `reclaim`
deliver and leave behind, also where a payload makes them raise.
-/

namespace Orcastork

/-! ### Lists with ids -/

section

variable {α : Type} {entryId : α → ℕ} {elements : List α}

theorem find?_entryId (h : (elements.map entryId).Nodup) {element : α} (hmem : element ∈ elements) :
  elements.find? (fun other => entryId other = entryId element) = some element
  := by
  obtain ⟨before, after, rfl⟩ := List.append_of_mem hmem
  rw [List.map_append, List.map_cons, List.nodup_middle, List.nodup_cons] at h
  have hbefore : before.find? (fun other => entryId other = entryId element) = none := by
    apply List.find?_eq_none.mpr
    intro other hother hsame
    apply h.1
    rw [← of_decide_eq_true hsame]
    apply List.mem_append_left
    apply List.mem_map_of_mem hother
  rw [List.find?_append, hbefore, Option.none_or, List.find?_cons_of_pos]
  simp

theorem eraseP_entryId {before after : List α} {element : α}
    (h : ((before ++ element :: after).map entryId).Nodup) :
  (before ++ element :: after).eraseP (fun other => entryId other = entryId element)
    = before ++ after
  := by
  rw [List.map_append, List.map_cons, List.nodup_middle, List.nodup_cons] at h
  rw [List.eraseP_append_right, List.eraseP_cons_of_pos (by simp)]
  intro other hother hsame
  apply h.1
  rw [← of_decide_eq_true hsame]
  apply List.mem_append_left
  apply List.mem_map_of_mem hother

/-- The elements without one of them, told apart by their ids. -/
theorem eraseP_eq_filter (h : (elements.map entryId).Nodup) {element : α}
    (hmem : element ∈ elements) :
  elements.eraseP (fun other => entryId other = entryId element)
    = elements.filter (fun other => entryId other ≠ entryId element)
  := by
  obtain ⟨before, after, rfl⟩ := List.append_of_mem hmem
  rw [eraseP_entryId h]
  rw [List.map_append, List.map_cons, List.nodup_middle, ← List.map_append, List.nodup_cons] at h
  have hothers : ∀ other ∈ before ++ after, entryId other ≠ entryId element := by
    intro other hother hsame
    apply h.1
    rw [← hsame]
    apply List.mem_map_of_mem hother
  rw [List.filter_append, List.filter_cons_of_neg (by simp), ← List.filter_append, eq_comm,
    List.filter_eq_self]
  intro other hother
  simpa using hothers other hother

end

/-- The id of a delivered entry. -/
def DeliveredInboxEntry.entryId : DeliveredInboxEntry → ℕ
  | .entry entryId _ _ => entryId
  | .poison entryId _ _ _ => entryId

/-- The delivery count of a delivered entry. -/
def DeliveredInboxEntry.deliveryCount : DeliveredInboxEntry → ℕ
  | .entry _ _ deliveryCount => deliveryCount
  | .poison _ _ deliveryCount _ => deliveryCount

/-- The JSON of DataPoints and the parser of wire payloads. -/
structure InboxCodec where
  dumps : BaseDataPoint → String
  decode : Decoder

/-- The operations of the inbox, with their arguments. -/
inductive InboxCall where
  | append (dataPoint : BaseDataPoint)
  | appendSerialized (payload : String)
  | consume (maxEntries : Option ℤ)
  | reclaim
  | ack (entryId : ℕ) (epoch : Epoch)
  | quarantine (entryId : ℕ) (reason : String) (epoch : Epoch)
  | quarantined
  | pendingCount

/-- What an operation returns. -/
inductive InboxReply where
  | appended (entryId : ℕ)
  | delivered (entries : List DeliveredInboxEntry)
  | done
  | quarantined (records : List QuarantinedEntry)
  | count (count : ℤ)

namespace InboxState

/-- The ids of the pending entries. -/
def pendingIds (state : InboxState) : List ℕ := state.messages.map Message.entryId

/-- A call on the inbox. A limit below zero counts as zero. -/
def perform (codec : InboxCodec) (state : InboxState) :
    InboxCall → Except OrchestrationError InboxReply × InboxState
  | .append dataPoint =>
    let (entryId, state) := state.append (codec.dumps dataPoint)
    (.ok (.appended entryId), state)
  | .appendSerialized payload =>
    let (entryId, state) := state.append payload
    (.ok (.appended entryId), state)
  | .consume maxEntries =>
    let (delivered, state) := state.consume codec.decode (maxEntries.map Int.toNat)
    (delivered.map .delivered, state)
  | .reclaim =>
    let (delivered, state) := state.reclaim codec.decode
    (delivered.map .delivered, state)
  | .ack entryId epoch =>
    match state.ack entryId epoch with
    | .error error => (.error error, state)
    | .ok state => (.ok .done, state)
  | .quarantine entryId reason epoch =>
    match state.quarantine entryId reason epoch with
    | .error error => (.error error, state)
    | .ok state => (.ok .done, state)
  | .quarantined => (.ok (.quarantined state.quarantined), state)
  | .pendingCount => (.ok (.count state.pendingCount), state)

/-! ### The messages of a pass -/

/-- Whether parsing a message makes a pass raise. -/
def isRejected (decode : Decoder) (message : Message) : Bool :=
  match decode message.payload with
  | .rejected _ => true
  | _ => false

/-- The messages of a list up to the first that makes a pass raise, and that one. -/
def upToRejected (decode : Decoder) : List Message → List Message
  | [] => []
  | message :: messages =>
    message :: if isRejected decode message then [] else upToRejected decode messages

/-- The first elements of a list, up to a limit if there is one. -/
def limited {α : Type} (limit : Option ℕ) (elements : List α) : List α :=
  match limit with
  | none => elements
  | some n => elements.take n

/-! ### What the loops do -/

variable {decode : Decoder} {limit : Option ℕ} {messages old fresh : List Message}

theorem limited_nil {α : Type} (limit : Option ℕ) :
  limited limit ([] : List α) = []
  := by
  cases limit with
  | none => rfl
  | some n => apply List.take_nil

theorem limited_map {α β : Type} (f : α → β) (limit : Option ℕ) (elements : List α) :
  limited limit (elements.map f) = (limited limit elements).map f
  := by
  cases limit with
  | none => rfl
  | some n =>
      symm
      apply List.map_take

/-- What is behind the first elements of a list. -/
theorem limited_append {α : Type} (limit : Option ℕ) (elements : List α) :
  ∃ rest, elements = limited limit elements ++ rest
  := by
  cases limit with
  | none =>
      use []
      rw [List.append_nil]
      rfl
  | some n =>
      use elements.drop n
      symm
      apply List.take_append_drop

theorem limited_cons (hlimit : limit ≠ some 0) (message : Message) (messages : List Message) :
  limited limit (message :: messages) = message :: limited (limit.map (· - 1)) messages
  := by
  cases limit with
  | none => rfl
  | some n =>
      cases n with
      | zero => exact absurd rfl hlimit
      | succ n => rfl

theorem toEntry_of_rejected {message : Message} (h : isRejected decode message = true) :
  ∃ error, toEntry decode message = .error error
  := by
  rw [isRejected] at h
  split at h
  · rename_i error hdecode
    use error
    rw [toEntry, hdecode]
  · cases h

theorem toEntry_of_not_rejected {message : Message} (h : isRejected decode message = false) :
  ∃ entry, toEntry decode message = .ok entry ∧ entry.entryId = message.entryId
    ∧ entry.deliveryCount = message.deliveryCount
  := by
  rw [isRejected] at h
  rw [toEntry]
  split at h
  · cases h
  · rename_i hdecode
    split
    · exact ⟨_, rfl, rfl, rfl⟩
    · exact ⟨_, rfl, rfl, rfl⟩
    · rename_i error hrejected
      exact absurd hrejected (hdecode error)

/-- What a delivered entry says of its message. -/
def presented (entry : DeliveredInboxEntry) : ℕ × ℕ := (entry.entryId, entry.deliveryCount)

/-- What a message is presented as, once it was reached. -/
def presentation (message : Message) : ℕ × ℕ := (message.entryId, message.deliveryCount + 1)

theorem consumeLoop_zero :
  consumeLoop decode (some 0) messages = (.ok [], messages)
  := by
  cases messages with
  | nil => rfl
  | cons message messages => rw [consumeLoop, if_pos rfl]

/-- Consuming passes over delivered messages. -/
theorem consumeLoop_old (hold : ∀ message ∈ old, message.claimed = true) :
  consumeLoop decode limit (old ++ fresh)
    = ((consumeLoop decode limit fresh).1, old ++ (consumeLoop decode limit fresh).2)
  := by
  induction old with
  | nil => rfl
  | cons message old ih =>
      obtain ⟨hclaimed, hold⟩ := List.forall_mem_cons.mp hold
      by_cases hlimit : limit = some 0
      · rw [hlimit, consumeLoop_zero, consumeLoop_zero]
      · rw [List.cons_append, consumeLoop, if_neg hlimit, if_pos hclaimed, ih hold]
        rfl

/-- Consuming claims the messages it reaches. -/
theorem consumeLoop_fresh (hfresh : ∀ message ∈ fresh, message.claimed = false) :
  ∃ rest, fresh = upToRejected decode (limited limit fresh) ++ rest
    ∧ (consumeLoop decode limit fresh).2
      = (upToRejected decode (limited limit fresh)).map claim ++ rest
    ∧ ∀ delivered, (consumeLoop decode limit fresh).1 = .ok delivered →
      delivered.map presented = (upToRejected decode (limited limit fresh)).map presentation
  := by
  induction fresh generalizing limit with
  | nil =>
      rw [limited_nil]
      refine ⟨[], rfl, rfl, ?_⟩
      intro delivered hdelivered
      cases hdelivered
      rfl
  | cons message fresh ih =>
      obtain ⟨hunclaimed, hfresh⟩ := List.forall_mem_cons.mp hfresh
      by_cases hlimit : limit = some 0
      · subst hlimit
        refine ⟨message :: fresh, rfl, ?_, ?_⟩
        · rw [consumeLoop_zero]
          rfl
        · intro delivered hdelivered
          rw [consumeLoop_zero] at hdelivered
          cases hdelivered
          rfl
      · have hnot : ¬message.claimed = true := by
          rw [hunclaimed]
          decide
        rw [limited_cons hlimit, consumeLoop, if_neg hlimit, if_neg hnot, upToRejected]
        have hsame : isRejected decode (claim message) = isRejected decode message := rfl
        cases hrejected : isRejected decode message with
        | true =>
            obtain ⟨error, herror⟩ := toEntry_of_rejected (hsame.trans hrejected)
            rw [herror, if_pos rfl]
            refine ⟨fresh, rfl, rfl, ?_⟩
            intro delivered hdelivered
            cases hdelivered
        | false =>
            obtain ⟨entry, hentry, hid, hcount⟩ := toEntry_of_not_rejected (hsame.trans hrejected)
            obtain ⟨rest, hrest, hmessages, hreply⟩ := @ih (limit.map (· - 1)) hfresh
            rw [hentry, if_neg (by decide)]
            refine ⟨rest, ?_, ?_, ?_⟩
            · rw [List.cons_append, ← hrest]
            · simp only [hmessages, List.map_cons, List.cons_append]
            · intro delivered hdelivered
              cases hloop : (consumeLoop decode (limit.map (· - 1)) fresh).1 with
              | error error =>
                  simp only [hloop] at hdelivered
                  cases hdelivered
              | ok others =>
                  simp only [hloop] at hdelivered
                  cases hdelivered
                  rw [List.map_cons, List.map_cons, hreply others hloop, presented, hid, hcount]
                  rfl

theorem reclaimLoop_fresh (hfresh : ∀ message ∈ fresh, message.claimed = false) :
  reclaimLoop decode fresh = (.ok [], fresh)
  := by
  induction fresh with
  | nil => rfl
  | cons message fresh ih =>
      obtain ⟨hunclaimed, hfresh⟩ := List.forall_mem_cons.mp hfresh
      rw [reclaimLoop, if_neg (by rw [hunclaimed]; decide), ih hfresh]

/-- Reclaiming counts the delivered messages it reaches once more. -/
theorem reclaimLoop_old (hold : ∀ message ∈ old, message.claimed = true)
    (hfresh : ∀ message ∈ fresh, message.claimed = false) :
  ∃ rest, old = upToRejected decode old ++ rest
    ∧ (reclaimLoop decode (old ++ fresh)).2
      = (upToRejected decode old).map redeliver ++ rest ++ fresh
    ∧ ∀ delivered, (reclaimLoop decode (old ++ fresh)).1 = .ok delivered →
      delivered.map presented = (upToRejected decode old).map presentation
  := by
  induction old with
  | nil =>
      rw [List.nil_append, reclaimLoop_fresh hfresh]
      refine ⟨[], rfl, rfl, ?_⟩
      intro delivered hdelivered
      cases hdelivered
      rfl
  | cons message old ih =>
      obtain ⟨hclaimed, hold⟩ := List.forall_mem_cons.mp hold
      rw [List.cons_append, reclaimLoop, if_pos hclaimed, upToRejected]
      have hsame : isRejected decode (redeliver message) = isRejected decode message := rfl
      cases hrejected : isRejected decode message with
      | true =>
          obtain ⟨error, herror⟩ := toEntry_of_rejected (hsame.trans hrejected)
          rw [herror, if_pos rfl]
          refine ⟨old, rfl, rfl, ?_⟩
          intro delivered hdelivered
          cases hdelivered
      | false =>
          obtain ⟨entry, hentry, hid, hcount⟩ := toEntry_of_not_rejected (hsame.trans hrejected)
          obtain ⟨rest, hrest, hmessages, hreply⟩ := ih hold
          rw [hentry, if_neg (by decide)]
          refine ⟨rest, ?_, ?_, ?_⟩
          · rw [List.cons_append, ← hrest]
          · simp only [hmessages, List.map_cons, List.cons_append]
          · intro delivered hdelivered
            cases hloop : (reclaimLoop decode (old ++ fresh)).1 with
            | error error =>
                simp only [hloop] at hdelivered
                cases hdelivered
            | ok others =>
                simp only [hloop] at hdelivered
                cases hdelivered
                rw [List.map_cons, List.map_cons, hreply others hloop, presented, hid, hcount]
                rfl

/-! ### What the passes return -/

theorem mapM_congr {α β ε : Type} {f g : α → Except ε β} {elements : List α}
    (h : ∀ element ∈ elements, f element = g element) :
  elements.mapM f = elements.mapM g
  := by
  induction elements with
  | nil => rfl
  | cons element elements ih =>
      obtain ⟨hhead, htail⟩ := List.forall_mem_cons.mp h
      rw [List.mapM_cons, List.mapM_cons, hhead, ih htail]

/-- Where nothing raises, a pass over a list returns as many results. -/
theorem exists_mapM_eq_ok {α β ε : Type} {f : α → Except ε β} {elements : List α}
    (h : ∀ element ∈ elements, ∃ result, f element = .ok result) :
  ∃ results, elements.mapM f = .ok results ∧ results.length = elements.length
  := by
  induction elements with
  | nil => exact ⟨[], rfl, rfl⟩
  | cons element elements ih =>
      obtain ⟨hhead, htail⟩ := List.forall_mem_cons.mp h
      obtain ⟨result, hresult⟩ := hhead
      obtain ⟨results, hresults, hlength⟩ := ih htail
      use result :: results
      rw [List.mapM_cons, hresult, hresults, List.length_cons, hlength]
      constructor
      · rfl
      · rfl

/-- Where no payload is rejected, a pass reaches every message. -/
theorem upToRejected_eq_self (h : ∀ message ∈ messages, isRejected decode message = false) :
  upToRejected decode messages = messages
  := by
  induction messages with
  | nil => rfl
  | cons message messages ih =>
      obtain ⟨hmessage, hmessages⟩ := List.forall_mem_cons.mp h
      rw [upToRejected, hmessage, if_neg (by decide), ih hmessages]

/-- Consuming returns the parsed messages it claims, or raises on the first that is rejected. -/
theorem consumeLoop_reply (hfresh : ∀ message ∈ fresh, message.claimed = false) :
  (consumeLoop decode limit fresh).1
    = ((limited limit fresh).map claim).mapM (toEntry decode)
  := by
  induction fresh generalizing limit with
  | nil =>
      rw [limited_nil]
      rfl
  | cons message fresh ih =>
      obtain ⟨hunclaimed, hfresh⟩ := List.forall_mem_cons.mp hfresh
      by_cases hlimit : limit = some 0
      · rw [hlimit, consumeLoop_zero]
        rfl
      · have hnot : ¬message.claimed = true := by
          rw [hunclaimed]
          decide
        rw [limited_cons hlimit, consumeLoop, if_neg hlimit, if_neg hnot, List.map_cons,
          List.mapM_cons]
        cases hentry : toEntry decode (claim message) with
        | error error => rfl
        | ok entry =>
            simp only [ih hfresh]
            rfl

/-- Reclaiming returns the parsed messages that are claimed. -/
theorem reclaimLoop_reply :
  (reclaimLoop decode messages).1
    = ((messages.filter Message.claimed).map redeliver).mapM (toEntry decode)
  := by
  induction messages with
  | nil => rfl
  | cons message messages ih =>
      rw [reclaimLoop, List.filter_cons]
      split
      · rw [List.map_cons, List.mapM_cons]
        cases hentry : toEntry decode (redeliver message) with
        | error error => rfl
        | ok entry =>
            simp only [ih]
            rfl
      · apply ih

/-! ### What ack and quarantine do -/

theorem guardEpoch_of_lt {state : InboxState} {epoch : Epoch} (hlt : epoch < state.maxEpoch) :
  state.guardEpoch epoch
    = .error (.staleEpoch s!"epoch {epoch} is stale (current {state.maxEpoch})")
  := by
  rw [guardEpoch, if_pos hlt]

theorem guardEpoch_of_le {state : InboxState} {epoch : Epoch} (hle : state.maxEpoch ≤ epoch) :
  state.guardEpoch epoch = .ok { state with maxEpoch := epoch }
  := by
  rw [guardEpoch, if_neg (Nat.not_lt.mpr hle)]

/-- What an ack does: a stale one raises, and one for an entry that is not delivered only
raises the watermark. -/
theorem perform_ack (codec : InboxCodec) (state : InboxState) (entryId : ℕ) (epoch : Epoch) :
  state.perform codec (.ack entryId epoch)
    = if epoch < state.maxEpoch then
        (.error (.staleEpoch s!"epoch {epoch} is stale (current {state.maxEpoch})"), state)
      else match state.claimed? entryId with
        | none => (.ok .done, { state with maxEpoch := epoch })
        | some _ =>
          (.ok .done, { state with messages := state.without entryId, maxEpoch := epoch })
  := by
  split
  · rename_i hlt
    rw [perform, InboxState.ack, guardEpoch_of_lt hlt]
    rfl
  · rename_i hle
    rw [perform, InboxState.ack, guardEpoch_of_le (Nat.not_lt.mp hle)]
    simp only [bind, Except.bind]
    have hsame : InboxState.claimed? { state with maxEpoch := epoch } entryId
        = state.claimed? entryId := rfl
    rw [hsame]
    cases state.claimed? entryId with
    | none => rfl
    | some message => rfl

/-- What a quarantine does: as an ack, but the removed entry is recorded. -/
theorem perform_quarantine (codec : InboxCodec) (state : InboxState) (entryId : ℕ)
    (reason : String) (epoch : Epoch) :
  state.perform codec (.quarantine entryId reason epoch)
    = if epoch < state.maxEpoch then
        (.error (.staleEpoch s!"epoch {epoch} is stale (current {state.maxEpoch})"), state)
      else match state.claimed? entryId with
        | none => (.ok .done, { state with maxEpoch := epoch })
        | some message =>
          (.ok .done,
            { state with
              messages := state.without entryId
              quarantined := state.quarantined
                ++ [⟨entryId, reason, message.deliveryCount, message.payload⟩]
              maxEpoch := epoch })
  := by
  split
  · rename_i hlt
    rw [perform, InboxState.quarantine, guardEpoch_of_lt hlt]
    rfl
  · rename_i hle
    rw [perform, InboxState.quarantine, guardEpoch_of_le (Nat.not_lt.mp hle)]
    simp only [bind, Except.bind]
    have hsame : InboxState.claimed? { state with maxEpoch := epoch } entryId
        = state.claimed? entryId := rfl
    rw [hsame]
    cases state.claimed? entryId with
    | none => rfl
    | some message => rfl

/-- A message that an ack or a quarantine removes is pending under its id, and was delivered. -/
theorem mem_of_claimed? {state : InboxState} {entryId : ℕ} {message : Message}
    (h : state.claimed? entryId = some message) :
  message ∈ state.messages ∧ message.entryId = entryId ∧ message.claimed = true
  := by
  rw [claimed?, Option.filter_eq_some_iff] at h
  obtain ⟨hfind, hclaimed⟩ := h
  use List.mem_of_find?_eq_some hfind
  constructor
  · simpa using List.find?_some hfind
  · apply hclaimed

/-! ### Delivered and undelivered messages -/

/-- The messages are delivered ones and, behind them, the others. -/
structure Parts (state : InboxState) (old fresh : List Message) : Prop where
  messages : state.messages = old ++ fresh
  old_claimed : ∀ message ∈ old, message.claimed = true
  fresh_unclaimed : ∀ message ∈ fresh, message.claimed = false
  nodup : state.pendingIds.Nodup

/-- The delivered messages under an id; ids are told apart, so there is at most one. -/
def deliveredUnder (state : InboxState) (entryId : ℕ) : List Message :=
  state.messages.filter (fun message => message.entryId = entryId ∧ message.claimed = true)

/-- The messages but the delivered ones under an id. -/
def keptUnder (state : InboxState) (entryId : ℕ) : List Message :=
  state.messages.filter (fun message => ¬(message.entryId = entryId ∧ message.claimed = true))

/-- Ids that count on from `k` do so in both parts of a list. -/
theorem ids_append {α : Type} {entryId : α → ℕ} {k : ℕ} {first second : List α}
    (h : (first ++ second).map entryId = List.range' k (first ++ second).length) :
  first.map entryId = List.range' k first.length
    ∧ second.map entryId = List.range' (k + first.length) second.length
  := by
  rw [List.map_append, List.length_append, ← List.range'_append_1] at h
  apply List.append_inj h
  rw [List.length_map, List.length_range']

namespace Parts

variable {state : InboxState}

theorem filter_unclaimed (h : Parts state old fresh) :
  state.messages.filter (fun message => message.claimed = false) = fresh
  := by
  rw [h.messages, List.filter_append, List.filter_eq_nil_iff.mpr, List.nil_append,
    List.filter_eq_self.mpr]
  · intro message hmem
    simp [h.fresh_unclaimed message hmem]
  · intro message hmem
    simp [h.old_claimed message hmem]

theorem filter_claimed (h : Parts state old fresh) :
  state.messages.filter (fun message => message.claimed = true) = old
  := by
  rw [h.messages, List.filter_append, List.filter_eq_self.mpr, List.filter_eq_nil_iff.mpr,
    List.append_nil]
  · intro message hmem
    simp [h.fresh_unclaimed message hmem]
  · intro message hmem
    simp [h.old_claimed message hmem]

/-- The message an ack or a quarantine removes is a delivered one. -/
theorem claimed?_eq_some (h : Parts state old fresh) {entryId : ℕ} {message : Message}
    (hclaimed : state.claimed? entryId = some message) :
  ∃ before after, old = before ++ message :: after ∧ message.entryId = entryId
    ∧ state.without entryId = before ++ after ++ fresh
  := by
  obtain ⟨hmem, hid, hclaimed⟩ := mem_of_claimed? hclaimed
  rw [h.messages] at hmem
  have hold : message ∈ old := by
    rcases List.mem_append.mp hmem with hmem | hmem
    · apply hmem
    · rw [h.fresh_unclaimed message hmem] at hclaimed
      cases hclaimed
  obtain ⟨before, after, rfl⟩ := List.append_of_mem hold
  refine ⟨before, after, rfl, hid, ?_⟩
  have hnodup := h.nodup
  rw [pendingIds, h.messages, List.append_assoc, List.map_append] at hnodup
  have hbefore : ∀ message' ∈ before, ¬(decide (message'.entryId = entryId)) = true := by
    intro message' hmem' hsame
    apply (List.nodup_append.mp hnodup).2.2 _ (List.mem_map_of_mem hmem') message.entryId
    · apply List.mem_map_of_mem
      simp
    · rw [of_decide_eq_true hsame, hid]
  rw [without, h.messages, List.append_assoc, List.cons_append, List.eraseP_append_right _ hbefore,
    List.eraseP_cons_of_pos, List.append_assoc]
  simp [hid]

/-- An ack or a quarantine that removes nothing is not for a delivered entry. -/
theorem claimed?_eq_none (h : Parts state old fresh) {entryId : ℕ}
    (hclaimed : state.claimed? entryId = none) :
  entryId ∉ old.map Message.entryId
  := by
  intro hmem
  obtain ⟨message, hmem, hid⟩ := List.mem_map.mp hmem
  rw [claimed?, h.messages, List.find?_append] at hclaimed
  cases hfind : old.find? (fun message => message.entryId = entryId) with
  | none =>
      have hnot := List.find?_eq_none.mp hfind message hmem
      simp [hid] at hnot
  | some found =>
      rw [hfind, Option.some_or, Option.filter_eq_none_iff] at hclaimed
      apply hclaimed found rfl
      apply h.old_claimed found (List.mem_of_find?_eq_some hfind)

/-- Where an ack or a quarantine removes nothing, no delivered entry has the id. -/
theorem under_of_none (h : Parts state old fresh) {entryId : ℕ}
    (hclaimed : state.claimed? entryId = none) :
  state.deliveredUnder entryId = [] ∧ state.keptUnder entryId = state.messages
  := by
  have hnone : ∀ message ∈ state.messages,
      ¬(message.entryId = entryId ∧ message.claimed = true) := by
    rintro message hmem ⟨hid, hdelivered⟩
    rw [h.messages] at hmem
    rcases List.mem_append.mp hmem with hmem | hmem
    · apply h.claimed?_eq_none hclaimed
      rw [← hid]
      apply List.mem_map_of_mem hmem
    · rw [h.fresh_unclaimed message hmem] at hdelivered
      cases hdelivered
  constructor
  · apply List.filter_eq_nil_iff.mpr
    intro message hmem
    rw [decide_eq_true_eq]
    apply hnone message hmem
  · apply List.filter_eq_self.mpr
    intro message hmem
    apply decide_eq_true (hnone message hmem)

/-- What an ack or a quarantine removes is the one delivered entry with the id. -/
theorem under_of_some (h : Parts state old fresh) {entryId : ℕ} {message : Message}
    (hclaimed : state.claimed? entryId = some message) :
  state.deliveredUnder entryId = [message]
    ∧ state.keptUnder entryId = state.without entryId
  := by
  obtain ⟨hmem, hid, hdelivered⟩ := mem_of_claimed? hclaimed
  obtain ⟨before, after, hmessages⟩ := List.append_of_mem hmem
  have hnodup := h.nodup
  rw [pendingIds, hmessages, List.map_append, List.map_cons, List.nodup_middle, List.nodup_cons,
    ← List.map_append] at hnodup
  have hothers : ∀ other ∈ before ++ after, other.entryId ≠ entryId := by
    intro other hother hsame
    apply hnodup.1
    rw [hid, ← hsame]
    apply List.mem_map_of_mem hother
  have hwithout : state.without entryId = before ++ after := by
    rw [without, hmessages, ← hid]
    apply eraseP_entryId
    rw [← hmessages]
    apply h.nodup
  rw [hwithout, deliveredUnder, keptUnder, hmessages, List.filter_append, List.filter_append]
  constructor
  · rw [List.filter_cons_of_pos, List.filter_eq_nil_iff.mpr, List.filter_eq_nil_iff.mpr,
      List.nil_append]
    · intro other hother
      simp [hothers other (List.mem_append_right _ hother)]
    · intro other hother
      simp [hothers other (List.mem_append_left _ hother)]
    · simp [hid, hdelivered]
  · rw [List.filter_cons_of_neg, List.filter_eq_self.mpr, List.filter_eq_self.mpr]
    · intro other hother
      simp [hothers other (List.mem_append_right _ hother)]
    · intro other hother
      simp [hothers other (List.mem_append_left _ hother)]
    · simp [hid, hdelivered]

/-- An entry removed from the pending ones is among them no longer. -/
theorem removed {before after : List Message} {message : Message}
    (h : Parts state (before ++ message :: after) fresh) :
  message.entryId ∈ state.pendingIds
    ∧ message.entryId ∉ (before ++ after ++ fresh).map Message.entryId
  := by
  have hnodup := h.nodup
  rw [pendingIds, h.messages] at hnodup ⊢
  rw [List.append_assoc, List.cons_append, List.map_append, List.map_cons, List.nodup_middle,
    ← List.map_append, ← List.append_assoc, List.nodup_cons] at hnodup
  refine ⟨?_, hnodup.1⟩
  simp

end Parts

end InboxState

end Orcastork
