import Orcastork.Orchestrator.PairedMerges
import Orcastork.Orchestrator.TrailRun

/-!
# Drains of two executions side by side

The inboxes of two executions hold the same entries up to the values that stand in for each
other: what is parsed of the payloads is paired, or is malformed in the same way, or is rejected
in both. Then a drain presents, applies, acks and quarantines the same entries in both, with the
same reasons.
-/

namespace Orcastork

open Raising (Outcomes Alike)

namespace Pairing

variable {services : TrailServices} (pairing : Pairing services.leaves)

/-! ### Inboxes -/

/-- What two payloads are parsed to. -/
inductive Parsed : Decoded → Decoded → Prop
  | dataPoint {d d'} (h : pairing.DataPoints d d') : Parsed (.dataPoint d) (.dataPoint d')
  | malformed (error) : Parsed (.malformed error) (.malformed error)
  | rejected (error error') : Parsed (.rejected error) (.rejected error')

/-- Two messages that are parsed so. -/
structure Messages (message message' : Message) : Prop where
  entryId : message.entryId = message'.entryId
  deliveryCount : message.deliveryCount = message'.deliveryCount
  claimed : message.claimed = message'.claimed
  payload : pairing.Parsed (services.decode message.payload) (services.decode message'.payload)

/-- Two inboxes, up to the payloads of what they have quarantined. -/
structure Inboxes (inbox inbox' : InboxState) : Prop where
  messages : List.Forall₂ pairing.Messages inbox.messages inbox'.messages
  maxEpoch : inbox.maxEpoch = inbox'.maxEpoch
  nextId : inbox.nextId = inbox'.nextId

/-- Two entries that were delivered. -/
inductive Delivered : DeliveredInboxEntry → DeliveredInboxEntry → Prop
  | entry (entryId) {d d'} (deliveryCount) (h : pairing.DataPoints d d') :
    Delivered (.entry entryId d deliveryCount) (.entry entryId d' deliveryCount)
  | poison (entryId error deliveryCount payload payload') :
    Delivered (.poison entryId error deliveryCount payload)
      (.poison entryId error deliveryCount payload')

/-- Two entries that were delivered and could be parsed. -/
structure Valid (entry entry' : InboxEntry) : Prop where
  entryId : entry.entryId = entry'.entryId
  dataPoint : pairing.DataPoints entry.dataPoint entry'.dataPoint
  deliveryCount : entry.deliveryCount = entry'.deliveryCount

variable {pairing} {inbox inbox' : InboxState} {messages messages' : List Message}

theorem Messages.claim {message message' : Message} (h : pairing.Messages message message') :
  pairing.Messages (InboxState.claim message) (InboxState.claim message')
  := by
  constructor
  · apply h.entryId
  · rw [InboxState.claim, InboxState.claim, h.deliveryCount]
  · rfl
  · apply h.payload

theorem Messages.redeliver {message message' : Message} (h : pairing.Messages message message') :
  pairing.Messages (InboxState.redeliver message) (InboxState.redeliver message')
  := by
  constructor
  · apply h.entryId
  · rw [InboxState.redeliver, InboxState.redeliver, h.deliveryCount]
  · apply h.claimed
  · apply h.payload

theorem Messages.toEntry {message message' : Message} (h : pairing.Messages message message') :
  Outcomes (fun _ _ => True) pairing.Delivered (InboxState.toEntry services.decode message)
    (InboxState.toEntry services.decode message')
  := by
  have hpayload := h.payload
  rw [InboxState.toEntry, InboxState.toEntry, h.entryId, h.deliveryCount]
  generalize services.decode message.payload = decoded at hpayload ⊢
  generalize services.decode message'.payload = decoded' at hpayload ⊢
  cases hpayload with
  | dataPoint hdataPoint =>
      apply Outcomes.ok
      apply Delivered.entry _ _ hdataPoint
  | malformed error =>
      apply Outcomes.ok
      apply Delivered.poison
  | rejected _ _ => apply Outcomes.error trivial

variable (pairing) in
/-- Two passes over the messages of an inbox. -/
structure Passes
    (pass pass' : Except OrchestrationError (List DeliveredInboxEntry) × List Message) :
    Prop where
  delivered : Outcomes (fun _ _ => True) (List.Forall₂ pairing.Delivered) pass.1 pass'.1
  messages : List.Forall₂ pairing.Messages pass.2 pass'.2

/-- A message that is passed over. -/
theorem Passes.over
    {pass pass' : Except OrchestrationError (List DeliveredInboxEntry) × List Message}
    (h : pairing.Passes pass pass') {message message' : Message}
    (hmessage : pairing.Messages message message') :
  pairing.Passes (pass.1, message :: pass.2) (pass'.1, message' :: pass'.2)
  := by
  constructor
  · apply h.delivered
  · apply List.Forall₂.cons hmessage h.messages

/-- A message that is delivered. -/
theorem Passes.deliver
    {pass pass' : Except OrchestrationError (List DeliveredInboxEntry) × List Message}
    (h : pairing.Passes pass pass') {message message' : Message}
    (hmessage : pairing.Messages message message') {entry entry' : DeliveredInboxEntry}
    (hentry : pairing.Delivered entry entry') :
  pairing.Passes (pass.1.map (entry :: ·), message :: pass.2)
    (pass'.1.map (entry' :: ·), message' :: pass'.2)
  := by
  obtain ⟨delivered, messages⟩ := pass
  obtain ⟨delivered', messages'⟩ := pass'
  obtain ⟨hdelivered, hmessages⟩ := h
  dsimp only at hdelivered hmessages
  constructor
  · cases hdelivered with
    | error _ => apply Outcomes.error trivial
    | ok hdelivered => apply Outcomes.ok (List.Forall₂.cons hentry hdelivered)
  · apply List.Forall₂.cons hmessage hmessages

theorem passes_consumeLoop (h : List.Forall₂ pairing.Messages messages messages')
    (limit : Option ℕ) :
  pairing.Passes (InboxState.consumeLoop services.decode limit messages)
    (InboxState.consumeLoop services.decode limit messages')
  := by
  induction h generalizing limit with
  | nil =>
      constructor
      · apply Outcomes.ok List.Forall₂.nil
      · apply List.Forall₂.nil
  | @cons message message' messages messages' hmessage hmessages ih =>
      rw [InboxState.consumeLoop, InboxState.consumeLoop, hmessage.claimed]
      split
      · constructor
        · apply Outcomes.ok List.Forall₂.nil
        · apply List.Forall₂.cons hmessage hmessages
      · split
        · apply (ih limit).over hmessage
        · have hentry := hmessage.claim.toEntry
          generalize InboxState.toEntry _ (InboxState.claim message) = entry at hentry ⊢
          generalize InboxState.toEntry _ (InboxState.claim message') = entry' at hentry ⊢
          cases hentry with
          | error _ =>
              constructor
              · apply Outcomes.error trivial
              · apply List.Forall₂.cons hmessage.claim hmessages
          | ok hentry => apply (ih _).deliver hmessage.claim hentry

theorem passes_reclaimLoop (h : List.Forall₂ pairing.Messages messages messages') :
  pairing.Passes (InboxState.reclaimLoop services.decode messages)
    (InboxState.reclaimLoop services.decode messages')
  := by
  induction h with
  | nil =>
      constructor
      · apply Outcomes.ok List.Forall₂.nil
      · apply List.Forall₂.nil
  | @cons message message' messages messages' hmessage hmessages ih =>
      rw [InboxState.reclaimLoop, InboxState.reclaimLoop, hmessage.claimed]
      split
      · have hentry := hmessage.redeliver.toEntry
        generalize InboxState.toEntry _ (InboxState.redeliver message) = entry at hentry ⊢
        generalize InboxState.toEntry _ (InboxState.redeliver message') = entry' at hentry ⊢
        cases hentry with
        | error _ =>
            constructor
            · apply Outcomes.error trivial
            · apply List.Forall₂.cons hmessage.redeliver hmessages
        | ok hentry => apply ih.deliver hmessage.redeliver hentry
      · apply ih.over hmessage

/-- What is reclaimed and consumed of two inboxes. -/
theorem Inboxes.deliver (h : pairing.Inboxes inbox inbox') :
  Outcomes (fun _ _ => True) (List.Forall₂ pairing.Delivered)
      (inbox.deliver services.decode).1 (inbox'.deliver services.decode).1
    ∧ pairing.Inboxes (inbox.deliver services.decode).2 (inbox'.deliver services.decode).2
  := by
  have hreclaimed := passes_reclaimLoop h.messages
  rw [InboxState.deliver, InboxState.deliver, InboxState.reclaim, InboxState.reclaim]
  generalize InboxState.reclaimLoop _ inbox.messages = reclaimed at hreclaimed ⊢
  generalize InboxState.reclaimLoop _ inbox'.messages = reclaimed' at hreclaimed ⊢
  obtain ⟨delivered, messages⟩ := reclaimed
  obtain ⟨delivered', messages'⟩ := reclaimed'
  obtain ⟨hreclaimed, hmessages⟩ := hreclaimed
  dsimp only at hreclaimed hmessages
  cases hreclaimed with
  | error _ =>
      constructor
      · apply Outcomes.error trivial
      · exact { h with messages := hmessages }
  | ok hreclaimed =>
      have hconsumed := passes_consumeLoop hmessages none
      dsimp only
      rw [InboxState.consume, InboxState.consume]
      dsimp only
      generalize InboxState.consumeLoop _ none messages = consumed at hconsumed ⊢
      generalize InboxState.consumeLoop _ none messages' = consumed' at hconsumed ⊢
      obtain ⟨delivered, messages⟩ := consumed
      obtain ⟨delivered', messages'⟩ := consumed'
      obtain ⟨hconsumed, hmessages⟩ := hconsumed
      dsimp only at hconsumed hmessages
      cases hconsumed with
      | error _ =>
          constructor
          · apply Outcomes.error trivial
          · exact { h with messages := hmessages }
      | ok hconsumed =>
          constructor
          · apply Outcomes.ok (List.rel_append hreclaimed hconsumed)
          · exact { h with messages := hmessages }

/-- An entry that is looked for by its id is found in both lists of messages or in none. -/
theorem find?_messages (h : List.Forall₂ pairing.Messages messages messages') (entryId : ℕ) :
  Option.Rel pairing.Messages
    (messages.find? (fun message => message.entryId = entryId))
    (messages'.find? (fun message => message.entryId = entryId))
  := by
  induction h with
  | nil => apply Option.Rel.none
  | cons hmessage _ ih =>
      rw [List.find?_cons, List.find?_cons, hmessage.entryId]
      split
      · apply Option.Rel.some hmessage
      · apply ih

theorem eraseP_messages (h : List.Forall₂ pairing.Messages messages messages') (entryId : ℕ) :
  List.Forall₂ pairing.Messages
    (messages.eraseP (fun message => message.entryId = entryId))
    (messages'.eraseP (fun message => message.entryId = entryId))
  := by
  induction h with
  | nil => apply List.Forall₂.nil
  | cons hmessage hmessages ih =>
      rw [List.eraseP_cons, List.eraseP_cons, hmessage.entryId, Bool.cond_decide,
        Bool.cond_decide]
      split
      · apply hmessages
      · apply List.Forall₂.cons hmessage ih

theorem Inboxes.claimed? (h : pairing.Inboxes inbox inbox') (entryId : ℕ) :
  Option.Rel pairing.Messages (inbox.claimed? entryId) (inbox'.claimed? entryId)
  := by
  have hfound := find?_messages h.messages entryId
  rw [InboxState.claimed?, InboxState.claimed?]
  generalize inbox.messages.find? _ = found at hfound ⊢
  generalize inbox'.messages.find? _ = found' at hfound ⊢
  cases hfound with
  | none => apply Option.Rel.none
  | some hmessage =>
      rw [Option.filter_some, Option.filter_some, hmessage.claimed]
      split
      · apply Option.Rel.some hmessage
      · apply Option.Rel.none

/-- An entry is removed from both inboxes, whatever becomes of it. -/
theorem Inboxes.without (h : pairing.Inboxes inbox inbox') (entryId : ℕ)
    (quarantined quarantined' : List QuarantinedEntry) :
  pairing.Inboxes
    { inbox with messages := inbox.without entryId, quarantined := quarantined }
    { inbox' with messages := inbox'.without entryId, quarantined := quarantined' }
  := by
  constructor
  · apply eraseP_messages h.messages
  · apply h.maxEpoch
  · apply h.nextId

theorem Inboxes.guardEpoch (h : pairing.Inboxes inbox inbox') (epoch : Epoch) :
  Outcomes Eq pairing.Inboxes (inbox.guardEpoch epoch) (inbox'.guardEpoch epoch)
  := by
  rw [InboxState.guardEpoch, InboxState.guardEpoch, h.maxEpoch]
  split
  · apply Outcomes.error rfl
  · apply Outcomes.ok
    constructor
    · apply h.messages
    · rfl
    · apply h.nextId

/-- An entry is acked, or the ack is fenced off, in both inboxes. -/
theorem Inboxes.ack (h : pairing.Inboxes inbox inbox') (entryId : ℕ) (epoch : Epoch) :
  Outcomes Eq pairing.Inboxes (inbox.ack entryId epoch) (inbox'.ack entryId epoch)
  := by
  have hguarded := h.guardEpoch epoch
  rw [InboxState.ack, InboxState.ack]
  generalize inbox.guardEpoch epoch = guarded at hguarded ⊢
  generalize inbox'.guardEpoch epoch = guarded' at hguarded ⊢
  cases hguarded with
  | error herror => apply Outcomes.error herror
  | @ok inbox inbox' h =>
      have hclaimed := h.claimed? entryId
      simp only [bind, Except.bind, pure, Except.pure]
      generalize inbox.claimed? entryId = claimed at hclaimed ⊢
      generalize inbox'.claimed? entryId = claimed' at hclaimed ⊢
      cases hclaimed with
      | none => apply Outcomes.ok h
      | some _ => apply Outcomes.ok (h.without entryId _ _)

theorem Inboxes.quarantine (h : pairing.Inboxes inbox inbox') (entryId : ℕ) (reason : String)
    (epoch : Epoch) :
  Outcomes Eq pairing.Inboxes (inbox.quarantine entryId reason epoch)
    (inbox'.quarantine entryId reason epoch)
  := by
  have hguarded := h.guardEpoch epoch
  rw [InboxState.quarantine, InboxState.quarantine]
  generalize inbox.guardEpoch epoch = guarded at hguarded ⊢
  generalize inbox'.guardEpoch epoch = guarded' at hguarded ⊢
  cases hguarded with
  | error herror => apply Outcomes.error herror
  | @ok inbox inbox' h =>
      have hclaimed := h.claimed? entryId
      simp only [bind, Except.bind, pure, Except.pure]
      generalize inbox.claimed? entryId = claimed at hclaimed ⊢
      generalize inbox'.claimed? entryId = claimed' at hclaimed ⊢
      cases hclaimed with
      | none => apply Outcomes.ok h
      | some _ => apply Outcomes.ok (h.without entryId _ _)

theorem Inboxes.append (h : pairing.Inboxes inbox inbox') {payload payload' : String}
    (hpayload : pairing.Parsed (services.decode payload) (services.decode payload')) :
  pairing.Inboxes (inbox.append payload).2 (inbox'.append payload').2
  := by
  constructor
  · apply List.rel_append h.messages
    apply List.Forall₂.cons _ List.Forall₂.nil
    constructor
    · apply h.nextId
    · rfl
    · rfl
    · apply hpayload
  · apply h.maxEpoch
  · rw [InboxState.append, InboxState.append, h.nextId]

/-! ### Drains -/

variable (pairing) in
/-- What drains read and change, in two executions. -/
structure Drains (state state' : DrainState) : Prop where
  merging : pairing.Merging state.toMergeState state'.toMergeState
  inbox : pairing.Inboxes state.inbox state'.inbox

variable {call : DrainCall}

theorem ack_alike (entryId : ℕ) :
  Alike pairing.Drains (DrainState.ack call entryId) (DrainState.ack call entryId)
  := by
  intro state state' h
  rw [DrainState.ack, DrainState.ack]
  cases call.ackFenced entryId with
  | some message => apply And.intro rfl h
  | none =>
      have hack := h.inbox.ack entryId call.epoch
      dsimp only
      generalize state.inbox.ack entryId call.epoch = acked at hack ⊢
      generalize state'.inbox.ack entryId call.epoch = acked' at hack ⊢
      cases hack with
      | error herror =>
          cases herror
          apply And.intro rfl h
      | ok hinbox =>
          use rfl
          constructor
          · apply h.merging
          · apply hinbox

theorem quarantine_alike (entryId : ℕ) (reason : String) :
  Alike pairing.Drains (DrainState.quarantine call entryId reason)
    (DrainState.quarantine call entryId reason)
  := by
  intro state state' h
  rw [DrainState.quarantine, DrainState.quarantine]
  cases (call.quarantine entryId).fenced with
  | some message => apply And.intro rfl h
  | none =>
      have hquarantine := h.inbox.quarantine entryId reason call.epoch
      dsimp only
      generalize state.inbox.quarantine entryId reason call.epoch = quarantined at hquarantine ⊢
      generalize state'.inbox.quarantine entryId reason call.epoch = quarantined'
        at hquarantine ⊢
      cases hquarantine with
      | error herror =>
          cases herror
          apply And.intro rfl h
      | ok hinbox =>
          use rfl
          constructor
          · apply h.merging
          · apply hinbox

/-- A trail that two merge states share is left to both alike. -/
theorem Merging.withAudit {state state' : MergeState} (h : pairing.Merging state state')
    (audit : AuditState) :
  pairing.Merging { state with audit := audit } { state' with audit := audit }
  := by
  constructor
  · apply h.mirror
  · apply h.store
  · rfl
  · apply h.archive
  · apply h.coalesced
  · apply h.reobserved

theorem auditQuarantine_alike (entryId : ℕ) (reason : String) (deliveryCount : ℕ) :
  Alike pairing.Drains
    (DrainState.auditQuarantine services.draining call entryId reason deliveryCount)
    (DrainState.auditQuarantine services.draining call entryId reason deliveryCount)
  := by
  intro state state' h
  rw [DrainState.auditQuarantine, DrainState.auditQuarantine]
  cases (call.quarantine entryId).auditFenced with
  | some fenced =>
      use rfl
      constructor
      · apply h.merging.withAudit
      · apply h.inbox
  | none =>
      dsimp only
      rw [h.merging.audit]
      split
      · apply And.intro rfl h
      · use rfl
        constructor
        · apply h.merging.withAudit
        · apply h.inbox

theorem quarantineInboxEntry_alike (entryId : ℕ) (reason : String) (deliveryCount : ℕ) :
  Alike pairing.Drains
    (DrainState.quarantineInboxEntry services.draining call entryId reason deliveryCount)
    (DrainState.quarantineInboxEntry services.draining call entryId reason deliveryCount)
  := (quarantine_alike entryId reason).andThen (auditQuarantine_alike entryId reason deliveryCount)

theorem applyInboxDataPoints_alike (hredacts : Redacts services.audit) (call : DrainCall)
    (attempt : ApplyAttempt) {batch batch' : List BaseDataPoint}
    (hbatch : List.Forall₂ pairing.DataPoints batch batch') :
  Alike pairing.Drains
    (DrainState.applyInboxDataPoints services.draining call attempt batch)
    (DrainState.applyInboxDataPoints services.draining call attempt batch')
  := by
  intro state state' h
  obtain ⟨houtcome, hmerged⟩ := h.merging.applyInboxDataPoints hredacts hbatch
  use houtcome
  constructor
  · apply hmerged
  · apply h.inbox

theorem applyInboxEntry_alike (hredacts : Redacts services.audit) {entry entry' : InboxEntry}
    (hentry : pairing.Valid entry entry') :
  Alike pairing.Drains (DrainState.applyInboxEntry services.draining call entry)
    (DrainState.applyInboxEntry services.draining call entry')
  := by
  intro state state' h
  have hbatch : List.Forall₂ pairing.DataPoints [entry.dataPoint] [entry'.dataPoint] :=
    List.Forall₂.cons hentry.dataPoint List.Forall₂.nil
  obtain ⟨houtcome, happlied⟩ := applyInboxDataPoints_alike hredacts call
    (call.single entry'.entryId) hbatch state state' h
  rw [DrainState.applyInboxEntry, DrainState.applyInboxEntry, hentry.entryId,
    hentry.deliveryCount]
  generalize DrainState.applyInboxDataPoints _ call _ [entry.dataPoint] state = applied
    at houtcome happlied ⊢
  generalize DrainState.applyInboxDataPoints _ call _ [entry'.dataPoint] state' = applied'
    at houtcome happlied ⊢
  obtain ⟨outcome, state⟩ := applied
  obtain ⟨outcome', state'⟩ := applied'
  cases houtcome
  cases outcome with
  | ok _ => apply ack_alike _ state state' happlied
  | error error =>
      dsimp only
      split
      · apply And.intro rfl happlied
      · split
        · apply quarantineInboxEntry_alike _ _ _ state state' happlied
        · apply And.intro rfl happlied

theorem quarantinePoison_alike {entry entry' : DeliveredInboxEntry}
    (hentry : pairing.Delivered entry entry') :
  Alike pairing.Drains (DrainState.quarantinePoison services.draining call entry)
    (DrainState.quarantinePoison services.draining call entry')
  := by
  cases hentry with
  | entry _ _ _ => apply Alike.skip
  | poison entryId error deliveryCount _ _ => apply quarantineInboxEntry_alike

theorem applyValid_alike (hredacts : Redacts services.audit) {valid valid' : List InboxEntry}
    (hvalid : List.Forall₂ pairing.Valid valid valid') :
  Alike pairing.Drains (DrainState.applyValid services.draining call valid)
    (DrainState.applyValid services.draining call valid')
  := by
  intro state state' h
  have hsingly : Alike pairing.Drains
      (Raising.each (DrainState.applyInboxEntry services.draining call) valid)
      (Raising.each (DrainState.applyInboxEntry services.draining call) valid') :=
    Alike.each (fun _ _ hentry => applyInboxEntry_alike hredacts hentry) hvalid
  have hacks : Alike pairing.Drains
      (Raising.each (fun entry => DrainState.ack call entry.entryId) valid)
      (Raising.each (fun entry => DrainState.ack call entry.entryId) valid') := by
    apply Alike.each _ hvalid
    intro entry entry' hentry
    rw [hentry.entryId]
    apply ack_alike
  have hbatch : List.Forall₂ pairing.DataPoints (valid.map InboxEntry.dataPoint)
      (valid'.map InboxEntry.dataPoint) :=
    List.rel_map (fun _ _ hentry => hentry.dataPoint) hvalid
  obtain ⟨houtcome, happlied⟩ :=
    applyInboxDataPoints_alike hredacts call call.batch hbatch state state' h
  rw [DrainState.applyValid, DrainState.applyValid, hvalid.length_eq]
  split
  · apply hsingly state state' h
  · generalize DrainState.applyInboxDataPoints _ call _ (valid.map _) state = applied
      at houtcome happlied ⊢
    generalize DrainState.applyInboxDataPoints _ call _ (valid'.map _) state' = applied'
      at houtcome happlied ⊢
    obtain ⟨outcome, state⟩ := applied
    obtain ⟨outcome', state'⟩ := applied'
    cases houtcome
    cases outcome with
    | ok _ => apply hacks state state' happlied
    | error error =>
        dsimp only
        split
        · apply And.intro rfl happlied
        · apply hsingly state state' happlied

theorem valid_delivered {entries entries' : List DeliveredInboxEntry}
    (h : List.Forall₂ pairing.Delivered entries entries') :
  List.Forall₂ pairing.Valid (entries.filterMap DeliveredInboxEntry.valid?)
    (entries'.filterMap DeliveredInboxEntry.valid?)
  := by
  apply List.rel_filterMap _ h
  intro entry entry' hentry
  cases hentry with
  | entry entryId deliveryCount hdataPoint =>
      apply Option.Rel.some
      constructor
      · rfl
      · apply hdataPoint
      · rfl
  | poison => apply Option.Rel.none

theorem drainEntries_alike (hredacts : Redacts services.audit) (call : DrainCall)
    {entries entries' : List DeliveredInboxEntry}
    (hentries : List.Forall₂ pairing.Delivered entries entries') :
  Alike pairing.Drains (DrainState.drainEntries services.draining call entries)
    (DrainState.drainEntries services.draining call entries')
  := by
  apply Alike.andThen
  · apply Alike.each _ hentries
    intro entry entry' hentry
    apply quarantinePoison_alike hentry
  · apply applyValid_alike hredacts (valid_delivered hentries)

/-- A drain writes the same rows in both executions, and raises in both or in none. -/
theorem Drains.drainInbox (hredacts : Redacts services.audit) {state state' : DrainState}
    (h : pairing.Drains state state') :
  Outcomes (fun _ _ => True) Eq
      (DrainState.drainInbox services.draining services.decode call state).1
      (DrainState.drainInbox services.draining services.decode call state').1
    ∧ pairing.Drains (DrainState.drainInbox services.draining services.decode call state).2
      (DrainState.drainInbox services.draining services.decode call state').2
  := by
  obtain ⟨hdelivered, hinbox⟩ := h.inbox.deliver
  rw [DrainState.drainInbox, DrainState.drainInbox]
  generalize state.inbox.deliver services.decode = delivered at hdelivered hinbox ⊢
  generalize state'.inbox.deliver services.decode = delivered' at hdelivered hinbox ⊢
  obtain ⟨outcome, inbox⟩ := delivered
  obtain ⟨outcome', inbox'⟩ := delivered'
  dsimp only at hdelivered hinbox
  cases hdelivered with
  | error _ =>
      constructor
      · apply Outcomes.error trivial
      · constructor
        · apply h.merging
        · apply hinbox
  | @ok entries entries' hentries =>
      obtain ⟨houtcome, hdrained⟩ := drainEntries_alike hredacts call hentries
        { state with inbox := inbox } { state' with inbox := inbox' } ⟨h.merging, hinbox⟩
      dsimp only
      rw [houtcome]
      apply And.intro Outcomes.refl hdrained

end Pairing

end Orcastork
