import Mathlib.Algebra.GroupWithZero.Nat
import Orcastork.Orchestrator.DrainIsolation

/-!
# The delivery budget of the pending entries

An entry that a drain leaves pending has been delivered once more, and fewer times than the cap.
So every drain takes something from the deliveries that the pending entries still have, as much as
there are entries (`Drained.budget`). Nothing but a payload that is rejected and a fencing stops a
drain.
-/

namespace Orcastork

/-- The id and the delivery count of a message. -/
def Message.counted (message : Message) : ℕ × ℕ := (message.entryId, message.deliveryCount)

/-- The deliveries that an entry has left, and its disposal. -/
def Message.budget (maxInboxDeliveries : ℤ) (message : Message) : ℕ :=
  (maxInboxDeliveries - message.deliveryCount).toNat + 1

namespace InboxState

/-- The deliveries that the pending entries have left, and their disposals. -/
def budget (maxInboxDeliveries : ℤ) (inbox : InboxState) : ℕ :=
  (inbox.messages.map (Message.budget maxInboxDeliveries)).sum

variable {decode : Decoder} {messages rest : List Message} {state inbox : InboxState}
  {delivered : List DeliveredInboxEntry}

/-! ### What is presented -/

theorem presented_toEntry {message : Message} {entry : DeliveredInboxEntry}
    (h : toEntry decode message = .ok entry) :
  presented entry = message.counted
  := by
  rw [toEntry] at h
  split at h
  · cases h
    rfl
  · cases h
    rfl
  · cases h

/-- A reclaim that returns presents the claimed messages as it leaves them. -/
theorem presented_reclaimLoop (h : reclaimLoop decode messages = (.ok delivered, rest)) :
  delivered.map presented = (rest.filter Message.claimed).map Message.counted
  := by
  induction messages generalizing delivered rest with
  | nil =>
      cases h
      rfl
  | cons message messages ih =>
      rw [reclaimLoop] at h
      cases hloop : reclaimLoop decode messages with
      | mk others remaining =>
          rw [hloop] at h
          cases hclaimed : message.claimed with
          | false =>
              simp only [hclaimed, Bool.false_eq_true, if_false] at h
              cases h
              rw [List.filter_cons_of_neg (by rw [hclaimed]; decide)]
              apply ih hloop
          | true =>
              simp only [hclaimed, if_true] at h
              split at h
              · cases h
              · rename_i entry hentry
                cases others with
                | error error => cases h
                | ok others =>
                    cases h
                    have hkept : (redeliver message).claimed = true := hclaimed
                    rw [List.filter_cons_of_pos hkept, List.map_cons, List.map_cons, ih hloop,
                      presented_toEntry hentry]

/-- A consume without a limit that returns presents messages that it leaves. -/
theorem presented_consumeLoop (h : consumeLoop decode none messages = (.ok delivered, rest)) :
  delivered.map presented ⊆ rest.map Message.counted
  := by
  induction messages generalizing delivered rest with
  | nil =>
      cases h
      apply List.Subset.refl
  | cons message messages ih =>
      rw [consumeLoop, if_neg (by simp)] at h
      cases hloop : consumeLoop decode none messages with
      | mk others remaining =>
          simp only [Option.map_none, hloop] at h
          cases hclaimed : message.claimed with
          | true =>
              simp only [hclaimed, if_true] at h
              cases h
              apply List.subset_cons_of_subset
              apply ih hloop
          | false =>
              simp only [hclaimed, Bool.false_eq_true, if_false] at h
              split at h
              · cases h
              · rename_i entry hentry
                cases others with
                | error error => cases h
                | ok others =>
                    cases h
                    rw [List.map_cons, List.map_cons, presented_toEntry hentry]
                    apply List.cons_subset_cons
                    apply ih hloop

/-- What is delivered is what is pending, each entry with the count it has now. -/
theorem presented_deliver (h : state.deliver decode = (.ok delivered, inbox)) :
  delivered.map presented ⊆ inbox.messages.map Message.counted
  := by
  obtain ⟨first, second, messages, hreclaim, hconsume, rfl, -⟩ := deliver_eq_ok h
  rw [List.map_append, List.append_subset]
  constructor
  · rw [presented_reclaimLoop hreclaim, (consumeLoop_eq_ok hconsume).1]
    intro count hmem
    obtain ⟨message, hmessage, rfl⟩ := List.mem_map.mp hmem
    obtain ⟨hmessage, hclaimed⟩ := List.mem_filter.mp hmessage
    rw [List.map_map]
    apply List.mem_map.mpr ⟨message, hmessage, ?_⟩
    rw [Function.comp_apply, consumed, if_pos hclaimed]
  · apply presented_consumeLoop hconsume

theorem messages_deliver (h : state.deliver decode = (.ok delivered, inbox)) :
  inbox.messages = state.messages.map (fun message => consumed (reclaimed message))
  := by
  obtain ⟨first, second, messages, hreclaim, hconsume, -, -⟩ := deliver_eq_ok h
  rw [(consumeLoop_eq_ok hconsume).1, (reclaimLoop_eq_ok hreclaim).1, List.map_map]
  rfl

theorem deliveryCount_delivered (message : Message) :
  (consumed (reclaimed message)).deliveryCount = message.deliveryCount + 1
  := by
  cases hclaimed : message.claimed with
  | false =>
      have hreclaimed : reclaimed message = message := by
        rw [reclaimed, hclaimed]
        rfl
      rw [hreclaimed, consumed, hclaimed]
      rfl
  | true =>
      rw [consumed, claimed_reclaimed, if_pos hclaimed, reclaimed, if_pos hclaimed]
      rfl

theorem payload_reclaimed (message : Message) :
  (reclaimed message).payload = message.payload
  := by
  rw [reclaimed]
  split
  · rfl
  · rfl

theorem payload_consumed (message : Message) :
  (consumed message).payload = message.payload
  := by
  rw [consumed]
  split
  · rfl
  · rfl

/-! ### A delivery that returns -/

theorem isRejected_congr {message other : Message} (h : other.payload = message.payload) :
  isRejected decode other = isRejected decode message
  := by
  rw [isRejected, isRejected, h]

theorem exists_reclaimLoop_eq_ok (h : ∀ message ∈ messages, isRejected decode message = false) :
  ∃ delivered rest, reclaimLoop decode messages = (.ok delivered, rest)
  := by
  induction messages with
  | nil =>
      use [], []
      rfl
  | cons message messages ih =>
      obtain ⟨hmessage, hmessages⟩ := List.forall_mem_cons.mp h
      obtain ⟨others, rest, hloop⟩ := ih hmessages
      rw [reclaimLoop, hloop]
      split
      · have hsame : (redeliver message).payload = message.payload := rfl
        obtain ⟨entry, hentry, -⟩ :=
          toEntry_of_not_rejected ((isRejected_congr hsame).trans hmessage)
        rw [hentry]
        use entry :: others, redeliver message :: rest
        rfl
      · use others, message :: rest

theorem exists_consumeLoop_eq_ok (h : ∀ message ∈ messages, isRejected decode message = false) :
  ∃ delivered rest, consumeLoop decode none messages = (.ok delivered, rest)
  := by
  induction messages with
  | nil =>
      use [], []
      rfl
  | cons message messages ih =>
      obtain ⟨hmessage, hmessages⟩ := List.forall_mem_cons.mp h
      obtain ⟨others, rest, hloop⟩ := ih hmessages
      rw [consumeLoop, if_neg (by simp), Option.map_none, hloop]
      split
      · use others, message :: rest
      · have hsame : (claim message).payload = message.payload := rfl
        obtain ⟨entry, hentry, -⟩ :=
          toEntry_of_not_rejected ((isRejected_congr hsame).trans hmessage)
        rw [hentry]
        use entry :: others, claim message :: rest
        rfl

/-- A delivery returns if no pending payload is rejected. -/
theorem exists_deliver_eq_ok (h : ∀ message ∈ state.messages, isRejected decode message = false) :
  ∃ delivered inbox, state.deliver decode = (.ok delivered, inbox)
  := by
  obtain ⟨first, messages, hreclaim⟩ := exists_reclaimLoop_eq_ok h
  have hmessages : ∀ message ∈ messages, isRejected decode message = false := by
    rw [(reclaimLoop_eq_ok hreclaim).1]
    intro message hmem
    obtain ⟨before, hbefore, rfl⟩ := List.mem_map.mp hmem
    rw [isRejected_congr (payload_reclaimed before)]
    apply h before hbefore
  obtain ⟨second, rest, hconsume⟩ := exists_consumeLoop_eq_ok hmessages
  rw [deliver, reclaim, hreclaim]
  dsimp only
  rw [consume, hconsume]
  use first ++ second, { state with messages := rest }

end InboxState

/-! ### A drain that returns -/

/-- What a drain that returns has done to the inbox: what is left of it has been delivered once
more, and fewer times than the cap. -/
structure Drained (maxInboxDeliveries : ℤ) (inbox inbox' : InboxState) : Prop where
  messages : ∃ keep : Message → Bool, inbox'.messages = (inbox.messages.map (fun message =>
    InboxState.consumed (InboxState.reclaimed message))).filter keep
  below : ∀ message ∈ inbox'.messages, message.deliveryCount < maxInboxDeliveries

/-- Elements that are mapped, and kept or not: the sum of what is kept is less by one for each. -/
theorem sum_filter_map_add_length_le {α β : Type} {f : α → β} {keep : β → Bool} {weight : α → ℕ}
    {weight' : β → ℕ} {elements : List α}
    (hpos : ∀ element, 0 < weight element)
    (hkept : ∀ element ∈ elements, keep (f element) = true →
      weight' (f element) < weight element) :
  (((elements.map f).filter keep).map weight').sum + elements.length
    ≤ (elements.map weight).sum
  := by
  induction elements with
  | nil => apply Nat.le_refl
  | cons element elements ih =>
      obtain ⟨helement, helements⟩ := List.forall_mem_cons.mp hkept
      have hrest := ih helements
      rw [List.map_cons, List.map_cons, List.sum_cons, List.length_cons]
      cases hkeep : keep (f element) with
      | false =>
          rw [List.filter_cons_of_neg (by rw [hkeep]; decide)]
          have helement := hpos element
          omega
      | true =>
          rw [List.filter_cons_of_pos hkeep, List.map_cons, List.sum_cons]
          have helement := helement hkeep
          omega

namespace Drained

variable {maxInboxDeliveries : ℤ} {inbox inbox' : InboxState}

/-- A drain takes a delivery, or the disposal, from every pending entry. -/
theorem budget (h : Drained maxInboxDeliveries inbox inbox') :
  inbox'.budget maxInboxDeliveries + inbox.pendingCount ≤ inbox.budget maxInboxDeliveries
  := by
  obtain ⟨keep, hmessages⟩ := h.messages
  have hbelow := h.below
  rw [InboxState.budget, InboxState.budget, InboxState.pendingCount]
  rw [hmessages] at hbelow ⊢
  apply sum_filter_map_add_length_le
  · intro message
    apply Nat.succ_pos
  · intro message hmem hkeep
    have hlt := hbelow _ (List.mem_filter.mpr ⟨List.mem_map_of_mem hmem, hkeep⟩)
    rw [InboxState.deliveryCount_delivered] at hlt
    rw [Message.budget, Message.budget, InboxState.deliveryCount_delivered]
    omega

theorem pendingIds (h : Drained maxInboxDeliveries inbox inbox') :
  inbox'.pendingIds.Sublist inbox.pendingIds
  := by
  obtain ⟨keep, hmessages⟩ := h.messages
  have hids : (inbox.messages.map (fun message =>
      InboxState.consumed (InboxState.reclaimed message))).map Message.entryId
        = inbox.pendingIds := by
    rw [List.map_map, InboxState.pendingIds]
    apply List.map_congr_left
    intro message _
    rw [Function.comp_apply, InboxState.entryId_consumed, InboxState.entryId_reclaimed]
  rw [InboxState.pendingIds, hmessages, ← hids]
  apply List.Sublist.map
  apply List.filter_sublist

theorem payload (h : Drained maxInboxDeliveries inbox inbox') {message : Message}
    (hmem : message ∈ inbox'.messages) :
  ∃ before ∈ inbox.messages, message.payload = before.payload
  := by
  obtain ⟨keep, hmessages⟩ := h.messages
  rw [hmessages] at hmem
  obtain ⟨before, hbefore, rfl⟩ := List.mem_map.mp (List.mem_of_mem_filter hmem)
  use before, hbefore
  rw [InboxState.payload_consumed, InboxState.payload_reclaimed]

end Drained

namespace Progress

variable {call : DrainCall} {inbox : InboxState} {undisturbed : Prop}
  {delivered : List DeliveredInboxEntry} {state : DrainState} {decode : Decoder}

/-- Where everything that was delivered is settled, what is pending was left for redelivery. -/
theorem below (hnodup : inbox.pendingIds.Nodup)
    (hentries : (delivered.map DeliveredInboxEntry.entryId).Perm inbox.pendingIds)
    (hpresented : delivered.map InboxState.presented ⊆ inbox.messages.map Message.counted)
    (h : Progress call inbox (call.batched delivered) undisturbed (settlingOrder delivered) state)
    {message : Message} (hmem : message ∈ state.inbox.messages) :
  message.deliveryCount < call.maxInboxDeliveries
  := by
  rw [h.messages] at hmem
  obtain ⟨hmessage, hkept⟩ := List.mem_filter.mp hmem
  have hkept := of_decide_eq_true hkept
  obtain ⟨entry, hentry, hid⟩ := List.mem_map.mp
    (hentries.symm.subset (List.mem_map_of_mem (f := Message.entryId) hmessage))
  have hsettled := (settlingOrder_perm delivered).symm.subset hentry
  obtain ⟨other, hother, hsame⟩ := List.mem_map.mp (hpresented (List.mem_map_of_mem hentry))
  obtain ⟨hotherId, hcount⟩ := Prod.mk.inj hsame
  obtain rfl := List.inj_on_of_nodup_map hnodup hother hmessage (hotherId.trans hid)
  have hcount : entry.deliveryCount = other.deliveryCount := hcount.symm
  -- An entry of another disposition is removed.
  have hredelivered : call.disposition (call.batched delivered) entry = .redelivered := by
    by_contra hdisposition
    apply hkept
    rw [← hid]
    apply List.mem_map_of_mem
    apply List.mem_filter.mpr ⟨hsettled, decide_eq_true hdisposition⟩
  rw [← hcount]
  cases entry with
  | poison _ _ _ _ => cases hredelivered
  | entry _ _ deliveryCount =>
      rw [DrainCall.disposition] at hredelivered
      split at hredelivered
      · cases hredelivered
      · split at hredelivered
        · cases hredelivered
        · rename_i hbelow
          apply Int.not_le.mp hbelow

end Progress

namespace DrainState

variable {services : DrainServices} {decode : Decoder} {call : DrainCall} {state : DrainState}

/-! ### Nothing is appended by a drain -/

/-- The id that the next entry will have. -/
def nextId (state : DrainState) : ℕ := state.inbox.nextId

theorem frames_ack (entryId : ℕ) :
  Raising.Frames (ack call entryId) nextId
  := by
  intro state
  rw [ack]
  split
  · rfl
  · split
    · rfl
    · rename_i inbox hack
      apply (InboxState.later_ack hack).1

theorem frames_applyInboxDataPoints (attempt : ApplyAttempt) (dataPoints : List BaseDataPoint) :
  Raising.Frames (applyInboxDataPoints services call attempt dataPoints) nextId
  := by
  intro state
  rfl

theorem frames_quarantineInboxEntry (entryId : ℕ) (reason : String) (deliveryCount : ℕ) :
  Raising.Frames (quarantineInboxEntry services call entryId reason deliveryCount) nextId
  := by
  apply Raising.Frames.andThen
  · intro state
    rw [quarantine]
    split
    · rfl
    · split
      · rfl
      · rename_i inbox hquarantine
        apply (InboxState.later_quarantine hquarantine).1
  · intro state
    rw [auditQuarantine]
    split
    · rfl
    · dsimp only
      split
      · rfl
      · rfl

theorem frames_applyInboxEntry (entry : InboxEntry) :
  Raising.Frames (applyInboxEntry services call entry) nextId
  := by
  intro state
  have happly := @frames_applyInboxDataPoints services call (call.single entry.entryId)
    [entry.dataPoint] state
  rw [applyInboxEntry]
  split
  · rename_i applied happlied
    rw [happlied] at happly
    apply (frames_ack entry.entryId applied).trans happly
  · rename_i error applied happlied
    rw [happlied] at happly
    split
    · apply happly
    · split
      · apply (frames_quarantineInboxEntry _ _ _ applied).trans happly
      · apply happly

theorem frames_applyValid (valid : List InboxEntry) :
  Raising.Frames (applyValid services call valid) nextId
  := by
  intro state
  have happly := @frames_applyInboxDataPoints services call call.batch
    (valid.map InboxEntry.dataPoint) state
  have hentries : Raising.Frames (Raising.each (applyInboxEntry services call) valid) nextId := by
    apply Raising.Frames.each frames_applyInboxEntry
  rw [applyValid]
  split
  · apply hentries
  · split
    · rename_i applied happlied
      rw [happlied] at happly
      have hacks : Raising.Frames
          (Raising.each (fun entry : InboxEntry => ack call entry.entryId) valid) nextId := by
        apply Raising.Frames.each
        intro entry
        apply frames_ack
      apply (hacks applied).trans happly
    · rename_i error applied happlied
      rw [happlied] at happly
      split
      · apply happly
      · apply (hentries applied).trans happly

theorem nextId_drainInbox (state : DrainState) :
  (drainInbox services decode call state).2.inbox.nextId = state.inbox.nextId
  := by
  have hdeliver : (state.inbox.deliver decode).2.nextId = state.inbox.nextId := by
    rw [InboxState.deliver]
    split
    · rename_i error inbox hreclaim
      have hlater := (@InboxState.later_reclaim state.inbox decode).1
      rw [hreclaim] at hlater
      apply hlater
    · rename_i reclaimed inbox hreclaim
      have hlater := (@InboxState.later_reclaim state.inbox decode).1
      rw [hreclaim] at hlater
      split
      · rename_i hconsume
        have hconsumed := (@InboxState.later_consume inbox decode none).1
        rw [hconsume] at hconsumed
        apply hconsumed.trans hlater
      · rename_i hconsume
        have hconsumed := (@InboxState.later_consume inbox decode none).1
        rw [hconsume] at hconsumed
        apply hconsumed.trans hlater
  have hentries : ∀ delivered, Raising.Frames (drainEntries services call delivered) nextId := by
    intro delivered
    apply Raising.Frames.andThen
    · apply Raising.Frames.each
      intro entry
      cases entry with
      | entry _ _ _ => apply Raising.Frames.skip
      | poison _ _ _ _ => apply frames_quarantineInboxEntry
    · apply frames_applyValid
  rw [drainInbox]
  split
  · rename_i hdelivered
    rw [hdelivered] at hdeliver
    apply hdeliver
  · rename_i delivered inbox hdelivered
    rw [hdelivered] at hdeliver
    have hframe := hentries delivered { state with inbox := inbox }
    apply hframe.trans hdeliver

/-! ### What a drain does to the budget -/

/-- A drain that returns has taken a delivery from every pending entry. -/
theorem ensures_drainInbox (hagrees : Agrees state.mirror state.store)
    (hids : state.inbox.pendingIds.Nodup) :
  Raising.Ensures (drainInbox services decode call state)
    (fun state' => Agrees state'.mirror state'.store
      ∧ Drained call.maxInboxDeliveries state.inbox state'.inbox
      ∧ (call.Unfenced → state.Current call.epoch → state'.Current call.epoch))
    (fun _ _ => True)
  := by
  rcases hdelivered : state.inbox.deliver decode with ⟨outcome, inbox⟩
  cases outcome with
  | error error =>
      rw [drainInbox, hdelivered]
      trivial
  | ok delivered =>
      have hdelivers := InboxState.delivers hdelivered
      obtain ⟨-, hdrain⟩ := drainInbox_progress services decode call hagrees hids hdelivered
      apply hdrain.mono
      · rintro state' ⟨h, -⟩
        refine ⟨h.agrees, ⟨?messages, ?below⟩, ?current⟩
        case messages =>
          use fun message =>
            message.entryId ∉ call.removed (call.batched delivered) (settlingOrder delivered)
          rw [h.messages, InboxState.messages_deliver hdelivered]
        case below =>
          intro message hmem
          apply h.below _ _ (InboxState.presented_deliver hdelivered) hmem
          · rw [hdelivers.pendingIds]
            apply hids
          · rw [hdelivers.pendingIds]
            apply hdelivers.entries
        case current =>
          intro hunfenced hcurrent
          apply h.current ⟨hunfenced, hcurrent⟩
      · intro _ _ _
        trivial

/-- A drain that no fencing and no rejected payload meets returns. -/
theorem exists_drainInbox_eq_ok (hagrees : Agrees state.mirror state.store)
    (hids : state.inbox.pendingIds.Nodup) (hunfenced : call.Unfenced)
    (hcurrent : state.Current call.epoch)
    (haccepted : ∀ message ∈ state.inbox.messages,
      InboxState.isRejected decode message = false) :
  ∃ state', drainInbox services decode call state = (.ok (), state')
  := by
  obtain ⟨delivered, inbox, hdelivered⟩ := InboxState.exists_deliver_eq_ok haccepted
  obtain ⟨-, hdrain⟩ := drainInbox_progress services decode call hagrees hids hdelivered
  rcases hdrained : drainInbox services decode call state with ⟨outcome, state'⟩
  rw [hdrained] at hdrain
  cases outcome with
  | ok _ => use state'
  | error error =>
      obtain ⟨-, hdisturbed, -⟩ := hdrain
      apply absurd ⟨hunfenced, hcurrent⟩ hdisturbed

end DrainState

end Orcastork
