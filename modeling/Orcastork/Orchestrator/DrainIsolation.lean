import Orcastork.Orchestrator.DrainProgress

/-!
# Isolation of the drained entries
-/

namespace Orcastork

open SessionState (Observes)

/-! ### The steps of a drain -/

/-- A drain of delivered entries: they are settled in some order, and no fencing meets an
undisturbed one. -/
structure Draining (call : DrainCall) (inbox : InboxState) (undisturbed : Prop)
    (order : List DeliveredInboxEntry) : Prop where
  delivered : inbox.AllDelivered
  order : (order.map DeliveredInboxEntry.entryId).Perm inbox.pendingIds
  unfenced : undisturbed → call.Unfenced

/-- A drain that was fenced off has settled the first entries of the order. -/
def Stopped (call : DrainCall) (inbox : InboxState) (batched : Bool) (undisturbed : Prop)
    (order : List DeliveredInboxEntry) (error : OrchestrationError) (state : DrainState) : Prop :=
  error.isStaleEpoch = true ∧ ¬undisturbed
    ∧ ∃ settled rest, order = settled ++ rest
      ∧ Progress call inbox batched undisturbed settled state

section Steps

variable {services : DrainServices} {call : DrainCall} {inbox : InboxState} {batched : Bool}
  {undisturbed : Prop} {order settled rest : List DeliveredInboxEntry}
  {entry : DeliveredInboxEntry} {state : DrainState}

namespace Draining

/-- The next entry of the order is pending. -/
theorem pending (hdraining : Draining call inbox undisturbed order)
    (horder : order = settled ++ entry :: rest)
    (h : Progress call inbox batched undisturbed settled state) :
  entry.entryId ∈ state.inbox.pendingIds
  := by
  have hnodup := hdraining.order.nodup_iff.mpr hdraining.delivered.nodup
  rw [horder, List.map_append, List.map_cons, List.nodup_middle, List.nodup_cons] at hnodup
  apply h.pending
  · apply hdraining.order.subset
    rw [horder]
    simp
  · intro hmem
    exact hnodup.1 (List.mem_append_left _ hmem)

/-- An ack settles an applied entry, or is fenced off. -/
theorem ack (hdraining : Draining call inbox undisturbed order)
    (horder : order = settled ++ entry :: rest)
    (h : Progress call inbox batched undisturbed settled state)
    (hdisposition : call.disposition batched entry = .applied)
    (hentry : Accounted call batched state entry) :
  Raising.Ensures (DrainState.ack call entry.entryId state)
    (Progress call inbox batched undisturbed (settled ++ [entry]))
    (Stopped call inbox batched undisturbed order)
  := by
  have hpending := hdraining.pending horder h
  rw [DrainState.ack]
  split
  · rename_i message hfenced
    refine ⟨rfl, ?_, settled, entry :: rest, horder, h⟩
    intro hundisturbed
    rw [(hdraining.unfenced hundisturbed).ack] at hfenced
    cases hfenced
  · rename_i hfenced
    split
    · rename_i error hack
      obtain ⟨hstale, hlt⟩ := InboxState.ack_eq_error hack
      refine ⟨hstale, ?_, settled, entry :: rest, horder, h⟩
      intro hundisturbed
      exact absurd (h.current hundisturbed).inbox (Nat.not_le.mpr hlt)
    · rename_i inbox' hack
      apply h.acked hdisposition hentry hfenced
      apply (h.allDelivered hdraining.delivered).ack hpending hack

/-- The audit row of a quarantine changes nothing but the log. -/
theorem auditQuarantine (hdraining : Draining call inbox undisturbed order)
    (horder : order = settled ++ rest)
    (h : Progress call inbox batched undisturbed settled state) (entryId : ℕ) (reason : String)
    (deliveryCount : ℕ) :
  Raising.Ensures (DrainState.auditQuarantine services call entryId reason deliveryCount state)
    (Progress call inbox batched undisturbed settled)
    (Stopped call inbox batched undisturbed order)
  := by
  rw [DrainState.auditQuarantine]
  split
  · rename_i message audit hfenced
    have hdisturbed : ¬undisturbed := by
      intro hundisturbed
      rw [(hdraining.unfenced hundisturbed).audit] at hfenced
      cases hfenced
    refine ⟨rfl, hdisturbed, settled, rest, horder, ?_⟩
    apply h.audited
    intro hundisturbed
    exact absurd hundisturbed hdisturbed
  · simp only [AuditState.append]
    split
    · rename_i error happend
      split at happend
      · rename_i hlt
        cases happend
        refine ⟨rfl, ?_, settled, rest, horder, h⟩
        intro hundisturbed
        exact absurd (h.current hundisturbed).merge.audit (Nat.not_le.mpr hlt)
      · cases happend
    · rename_i audit happend
      split at happend
      · cases happend
      · cases happend
        rw [Raising.ensures_ok]
        apply h.audited
        intro hundisturbed
        apply le_refl

/-- A quarantine settles poison or an entry at the cap, or is fenced off. -/
theorem quarantine (hdraining : Draining call inbox undisturbed order)
    (horder : order = settled ++ entry :: rest)
    (h : Progress call inbox batched undisturbed settled state)
    (hdisposition : call.disposition batched entry = .quarantined)
    (hentry : Accounted call batched state entry) (reason : String) (deliveryCount : ℕ) :
  Raising.Ensures
    (DrainState.quarantineInboxEntry services call entry.entryId reason deliveryCount state)
    (Progress call inbox batched undisturbed (settled ++ [entry]))
    (Stopped call inbox batched undisturbed order)
  := by
  have hpending := hdraining.pending horder h
  have hsettled : order = settled ++ [entry] ++ rest := by
    rw [horder, List.append_assoc]
    rfl
  rw [DrainState.quarantineInboxEntry]
  apply Raising.Ensures.andThen (Q := Progress call inbox batched undisturbed (settled ++ [entry]))
  · rw [DrainState.quarantine]
    split
    · rename_i message hfenced
      refine ⟨rfl, ?_, settled, entry :: rest, horder, h⟩
      intro hundisturbed
      rw [(hdraining.unfenced hundisturbed).quarantine] at hfenced
      cases hfenced
    · rename_i hfenced
      split
      · rename_i error hquarantine
        obtain ⟨hstale, hlt⟩ := InboxState.quarantine_eq_error hquarantine
        refine ⟨hstale, ?_, settled, entry :: rest, horder, h⟩
        intro hundisturbed
        exact absurd (h.current hundisturbed).inbox (Nat.not_le.mpr hlt)
      · rename_i inbox' hquarantine
        obtain ⟨record, hrecord, hinbox'⟩ :=
          (h.allDelivered hdraining.delivered).quarantine hpending hquarantine
        apply h.quarantined_concat hdisposition hentry hfenced hrecord hinbox'
  · intro state' h'
    apply hdraining.auditQuarantine hsettled h'

end Draining

/-- An apply of DataPoints that does not raise by fencing has landed or changed nothing. -/
theorem Progress.apply (h : Progress call inbox batched undisturbed settled state)
    {attempt : ApplyAttempt} (hunfenced : undisturbed → attempt.faults.Unfenced call.epoch)
    (dataPoints : List BaseDataPoint) :
  Raising.Ensures (DrainState.applyInboxDataPoints services call attempt dataPoints state)
    (fun state' => Progress call inbox batched undisturbed settled state'
      ∧ attempt.faults.apply = none
      ∧ ∀ dataPoint ∈ dataPoints, Observes state'.store.entries dataPoint)
    (fun error state' => Progress call inbox batched undisturbed settled state'
      ∧ (error.isStaleEpoch = true → ¬undisturbed)
      ∧ (error.isStaleEpoch = false → attempt.faults.apply = some error))
  := by
  have hlanded := @MergeState.ensures_applyInboxDataPoints services.toMergeServices
    ⟨call.epoch, attempt.now, attempt.faults⟩ state.toMergeState h.agrees dataPoints
  have hcurrent (hundisturbed : undisturbed) :=
    @MergeState.applyInboxDataPoints_unfenced services.toMergeServices
      ⟨call.epoch, attempt.now, attempt.faults⟩ state.toMergeState h.agrees
      (hunfenced hundisturbed) (h.current hundisturbed).merge dataPoints
  rw [DrainState.applyInboxDataPoints]
  generalize state.toMergeState.applyInboxDataPoints services.toMergeServices
    ⟨call.epoch, attempt.now, attempt.faults⟩ dataPoints = result at hlanded hcurrent ⊢
  obtain ⟨outcome, merged⟩ := result
  cases outcome with
  | ok _ =>
      obtain ⟨hfault, hagrees, hobserves⟩ := hlanded
      refine ⟨?_, hfault, fun dataPoint hmem => hobserves dataPoint (Or.inl hmem)⟩
      apply h.merged hagrees (fun observed hobserved => hobserves observed (Or.inr hobserved))
      apply hcurrent
  | error error =>
      obtain ⟨hagrees, hobserves, hfailed⟩ := hlanded
      refine ⟨?_, ?_, fun hstale => (hfailed hstale).1⟩
      · apply h.merged hagrees hobserves
        intro hundisturbed
        exact (hcurrent hundisturbed).2
      · intro hstale hundisturbed
        rw [(hcurrent hundisturbed).1] at hstale
        cases hstale

/-- An apply of one entry alone settles it as its disposition says, or is fenced off. -/
theorem Draining.applyEntry (hdraining : Draining call inbox undisturbed order)
    {valid : InboxEntry} (horder : order = settled ++ valid.delivered :: rest)
    (h : Progress call inbox false undisturbed settled state) :
  Raising.Ensures (DrainState.applyInboxEntry services call valid state)
    (Progress call inbox false undisturbed (settled ++ [valid.delivered]))
    (Stopped call inbox false undisturbed order)
  := by
  have happly := @Progress.apply services call inbox false undisturbed settled state h
    (call.single valid.entryId)
    (fun hundisturbed => (hdraining.unfenced hundisturbed).single valid.entryId)
    [valid.dataPoint]
  rw [DrainState.applyInboxEntry]
  generalize DrainState.applyInboxDataPoints services call (call.single valid.entryId)
    [valid.dataPoint] state = result at happly ⊢
  obtain ⟨outcome, state'⟩ := result
  cases outcome with
  | ok _ =>
      obtain ⟨h', hfault, hobserves⟩ := happly
      have hdisposition : call.disposition false valid.delivered = .applied := by
        simp [InboxEntry.delivered, DrainCall.disposition, hfault]
      apply hdraining.ack horder h' hdisposition
      constructor
      · intro _
        apply hobserves valid.dataPoint (List.mem_singleton_self _)
      · intro _ error herror
        rw [hfault] at herror
        cases herror
  | error error =>
      obtain ⟨h', hfenced, hfailed⟩ := happly
      simp only
      split
      · rename_i hstale
        exact ⟨hstale, hfenced hstale, settled, valid.delivered :: rest, horder, h'⟩
      · rename_i hstale
        have hstale := Bool.eq_false_iff.mpr hstale
        have hfault := hfailed hstale
        have haccounted : ∀ {disposition}, disposition ≠ .applied →
            call.disposition false valid.delivered = disposition →
              Accounted call false state' valid.delivered := by
          intro disposition hne hdisposition
          constructor
          · intro happlied
            exact absurd (hdisposition.symm.trans happlied) hne
          · intro _ error' herror'
            rw [hfault] at herror'
            cases herror'
            apply hstale
        split
        · rename_i hcap
          have hdisposition : call.disposition false valid.delivered = .quarantined := by
            simp [InboxEntry.delivered, DrainCall.disposition, hfault, hcap]
          apply hdraining.quarantine horder h' hdisposition
          apply haccounted _ hdisposition
          decide
        · rename_i hcap
          have hdisposition : call.disposition false valid.delivered = .redelivered := by
            simp [InboxEntry.delivered, DrainCall.disposition, hfault, hcap]
          rw [Raising.ensures_ok]
          apply h'.redelivered hdisposition
          apply haccounted _ hdisposition
          decide

end Steps

/-! ### The loops of a drain -/

/-- An apply of the whole batch does not raise by fencing, if it is made. -/
def DrainCall.BatchUnfenced (call : DrainCall) (valid : List InboxEntry) : Prop :=
  1 < valid.length → ∀ error, call.batch.faults.apply = some error → error.isStaleEpoch = false

section Loops

variable {services : DrainServices} {call : DrainCall} {inbox : InboxState} {batched : Bool}
  {undisturbed : Prop} {order poison : List DeliveredInboxEntry} {valid : List InboxEntry}
  {state : DrainState}

namespace Draining

/-- The first loop settles the poison. -/
theorem quarantinePoison {entries others : List DeliveredInboxEntry}
    (hdraining : Draining call inbox undisturbed order)
    (horder : order = entries.filter DeliveredInboxEntry.isPoison ++ others)
    (h : Progress call inbox batched undisturbed [] state) :
  Raising.Ensures (Raising.each (DrainState.quarantinePoison services call) entries state)
    (Progress call inbox batched undisturbed (entries.filter DeliveredInboxEntry.isPoison))
    (Stopped call inbox batched undisturbed order)
  := by
  apply Raising.Ensures.each (P := fun done =>
    Progress call inbox batched undisturbed (done.filter DeliveredInboxEntry.isPoison)) _ h
  intro done entry rest s hentries hdone
  rw [List.filter_append]
  cases entry with
  | entry entryId dataPoint deliveryCount =>
      have hskip : [DeliveredInboxEntry.entry entryId dataPoint deliveryCount].filter
          DeliveredInboxEntry.isPoison = [] := rfl
      rw [hskip, List.append_nil]
      exact hdone
  | poison entryId error deliveryCount rawPayload =>
      rw [hentries, List.filter_append, List.append_assoc] at horder
      apply hdraining.quarantine horder hdone rfl trivial

/-- The loop of single applies settles the valid entries. -/
theorem applyEntries (hdraining : Draining call inbox undisturbed order)
    (horder : order = poison ++ valid.map InboxEntry.delivered)
    (h : Progress call inbox false undisturbed poison state) :
  Raising.Ensures (Raising.each (DrainState.applyInboxEntry services call) valid state)
    (Progress call inbox false undisturbed order)
    (Stopped call inbox false undisturbed order)
  := by
  rw [← List.append_nil poison] at h
  rw [horder]
  apply Raising.Ensures.each (P := fun done =>
    Progress call inbox false undisturbed (poison ++ done.map InboxEntry.delivered)) _ h
  intro done entry rest s hvalid hdone
  rw [List.map_append, ← List.append_assoc, ← horder]
  rw [hvalid, List.map_append, ← List.append_assoc] at horder
  apply hdraining.applyEntry horder hdone

/-- Acks leave the store alone. -/
theorem store_ack (entryId : ℕ) :
  (DrainState.ack call entryId state).2.store = state.store
  := by
  rw [DrainState.ack]
  split
  · rfl
  · split
    · rfl
    · rfl

/-- The loop of acks settles the valid entries of a batch that has landed. -/
theorem ackEntries (hdraining : Draining call inbox undisturbed order)
    (horder : order = poison ++ valid.map InboxEntry.delivered)
    (h : Progress call inbox true undisturbed poison state)
    (hobserves : ∀ entry ∈ valid, Observes state.store.entries entry.dataPoint) :
  Raising.Ensures
    (Raising.each (fun entry : InboxEntry => DrainState.ack call entry.entryId) valid state)
    (Progress call inbox true undisturbed order)
    (Stopped call inbox true undisturbed order)
  := by
  rw [← List.append_nil poison] at h
  have hloop : Raising.Ensures
      (Raising.each (fun entry : InboxEntry => DrainState.ack call entry.entryId) valid state)
      (fun s => Progress call inbox true undisturbed
        (poison ++ valid.map InboxEntry.delivered) s ∧ s.store = state.store)
      (Stopped call inbox true undisturbed order) := by
    apply Raising.Ensures.each (P := fun done s => Progress call inbox true undisturbed
      (poison ++ done.map InboxEntry.delivered) s ∧ s.store = state.store) _ ⟨h, rfl⟩
    rintro done entry rest s hvalid ⟨hdone, hstore⟩
    rw [List.map_append, ← List.append_assoc]
    apply Raising.Ensures.frame
    · rw [hvalid, List.map_append, ← List.append_assoc] at horder
      apply hdraining.ack horder hdone rfl
      constructor
      · intro _
        rw [hstore]
        apply hobserves
        rw [hvalid]
        simp
      · intro hsingle
        cases hsingle
    · rw [store_ack, hstore]
  rw [← horder] at hloop
  apply hloop.mono
  · intro s hs
    exact hs.1
  · intro error s hs
    exact hs

/-- The valid entries are settled, in one batch or one by one. -/
theorem applyValid (hdraining : Draining call inbox undisturbed order)
    (horder : order = poison ++ valid.map InboxEntry.delivered)
    (hbatched : batched = (decide (1 < valid.length) && call.batch.faults.apply.isNone))
    (h : Progress call inbox batched undisturbed poison state) :
  Raising.Ensures (DrainState.applyValid services call valid state)
    (fun s => Progress call inbox batched undisturbed order s
      ∧ call.BatchUnfenced valid)
    (Stopped call inbox batched undisturbed order)
  := by
  rw [DrainState.applyValid]
  split
  · rename_i hsingle
    have hunfenced : call.BatchUnfenced valid :=
      fun hmany => absurd hsingle (Nat.not_le.mpr hmany)
    have hfalse : batched = false := by
      rw [hbatched, decide_eq_false (Nat.not_lt.mpr hsingle), Bool.false_and]
    rw [hfalse] at h ⊢
    exact (hdraining.applyEntries horder h).frame hunfenced
  · rename_i hmany
    rw [decide_eq_true (Nat.lt_of_not_le hmany), Bool.true_and] at hbatched
    have happly := @Progress.apply services call inbox batched undisturbed poison state h
      call.batch (fun hundisturbed => (hdraining.unfenced hundisturbed).batch)
      (valid.map InboxEntry.dataPoint)
    generalize DrainState.applyInboxDataPoints services call call.batch
      (valid.map InboxEntry.dataPoint) state = result at happly ⊢
    obtain ⟨outcome, state'⟩ := result
    cases outcome with
    | ok _ =>
        obtain ⟨h', hfault, hobserves⟩ := happly
        have hunfenced : call.BatchUnfenced valid := by
          intro _ error herror
          rw [hfault] at herror
          cases herror
        rw [hfault] at hbatched
        subst hbatched
        apply Raising.Ensures.frame _ hunfenced
        apply hdraining.ackEntries horder h'
        intro entry hmem
        apply hobserves entry.dataPoint (List.mem_map_of_mem hmem)
    | error error =>
        obtain ⟨h', hfenced, hfailed⟩ := happly
        simp only
        split
        · rename_i hstale
          exact ⟨hstale, hfenced hstale, poison, valid.map InboxEntry.delivered, horder, h'⟩
        · rename_i hstale
          have hfault := hfailed (Bool.eq_false_iff.mpr hstale)
          have hunfenced : call.BatchUnfenced valid := by
            intro _ error' herror'
            rw [hfault] at herror'
            cases herror'
            apply Bool.eq_false_iff.mpr hstale
          rw [hfault] at hbatched
          subst hbatched
          exact (hdraining.applyEntries horder h').frame hunfenced

end Draining

end Loops

/-! ### The whole drain -/

/-- The delivered entries in the order in which a drain settles them: first the poison. -/
def settlingOrder (delivered : List DeliveredInboxEntry) : List DeliveredInboxEntry :=
  delivered.filter DeliveredInboxEntry.isPoison
    ++ (delivered.filterMap DeliveredInboxEntry.valid?).map InboxEntry.delivered

theorem settlingOrder_perm (delivered : List DeliveredInboxEntry) :
  (settlingOrder delivered).Perm delivered
  := by
  induction delivered with
  | nil => rfl
  | cons entry delivered ih =>
      cases entry with
      | entry entryId dataPoint deliveryCount => exact List.perm_middle.trans (ih.cons _)
      | poison entryId error deliveryCount rawPayload => exact ih.cons _

section Drain

variable {services : DrainServices} {call : DrainCall} {inbox : InboxState}
  {undisturbed : Prop} {delivered : List DeliveredInboxEntry} {state : DrainState}

theorem Draining.drainEntries
    (hdraining : Draining call inbox undisturbed (settlingOrder delivered))
    (h : Progress call inbox (call.batched delivered) undisturbed [] state) :
  Raising.Ensures (DrainState.drainEntries services call delivered state)
    (fun s => Progress call inbox (call.batched delivered) undisturbed (settlingOrder delivered) s
      ∧ call.BatchUnfenced (delivered.filterMap DeliveredInboxEntry.valid?))
    (Stopped call inbox (call.batched delivered) undisturbed (settlingOrder delivered))
  := by
  apply Raising.Ensures.andThen (hdraining.quarantinePoison rfl h)
  intro state' h'
  apply hdraining.applyValid rfl rfl h'

end Drain

/-- A drain of what was delivered settles it all, or is fenced off. -/
theorem drainInbox_progress (services : DrainServices) (decode : Decoder) (call : DrainCall)
    {state : DrainState} (hagrees : Agrees state.mirror state.store)
    (hids : state.inbox.pendingIds.Nodup) {delivered : List DeliveredInboxEntry}
    {inbox : InboxState} (hdelivered : state.inbox.deliver decode = (.ok delivered, inbox)) :
  Draining call inbox (call.Unfenced ∧ state.Current call.epoch) (settlingOrder delivered)
    ∧ Raising.Ensures (DrainState.drainInbox services decode call state)
      (fun s => Progress call inbox (call.batched delivered)
          (call.Unfenced ∧ state.Current call.epoch) (settlingOrder delivered) s
        ∧ call.BatchUnfenced (delivered.filterMap DeliveredInboxEntry.valid?))
      (Stopped call inbox (call.batched delivered) (call.Unfenced ∧ state.Current call.epoch)
        (settlingOrder delivered))
  := by
  have hdelivers := InboxState.delivers hdelivered
  have hinbox : inbox.AllDelivered := by
    constructor
    · exact hdelivers.claimed
    · rw [hdelivers.pendingIds]
      exact hids
  have hdraining : Draining call inbox (call.Unfenced ∧ state.Current call.epoch)
      (settlingOrder delivered) := by
    constructor
    · exact hinbox
    · rw [hdelivers.pendingIds]
      apply List.Perm.trans _ hdelivers.entries
      apply (settlingOrder_perm delivered).map
    · intro hundisturbed
      exact hundisturbed.1
  have hstart : Progress call inbox (call.batched delivered)
      (call.Unfenced ∧ state.Current call.epoch) [] { state with inbox := inbox } := by
    constructor
    · exact hagrees
    · simp [DrainCall.removed]
    · exact ⟨[], by simp, rfl⟩
    · intro entry hmem
      cases hmem
    · intro entryId hmem
      cases hmem
    · intro entryId hmem
      cases hmem
    · rintro ⟨-, hcurrent⟩
      use hcurrent.merge
      rw [hdelivers.maxEpoch]
      exact hcurrent.inbox
  use hdraining
  rw [DrainState.drainInbox, hdelivered]
  apply hdraining.drainEntries hstart

/-- The apply of an entry alone is made, and raises other than by fencing. -/
def DrainCall.FailsAlone (call : DrainCall) (delivered : List DeliveredInboxEntry)
    (entryId : ℕ) : Prop :=
  call.batched delivered = false
    ∧ ∃ error, (call.single entryId).faults.apply = some error ∧ error.isStaleEpoch = false

/-- The apply of an entry is made, in the batch or alone, and does not raise. -/
def DrainCall.Applies (call : DrainCall) (delivered : List DeliveredInboxEntry)
    (entryId : ℕ) : Prop :=
  call.batched delivered = true ∨ (call.single entryId).faults.apply = none

/-- What a drain has made of the delivered entries: some are acked, some are quarantined, and
every other one is pending. -/
structure DrainIsolated (call : DrainCall) (state : DrainState)
    (delivered : List DeliveredInboxEntry) (result : Except OrchestrationError Unit × DrainState)
    (acked : List ℕ) (quarantined : List QuarantinedEntry) : Prop where
  places : (result.2.inbox.pendingIds ++ acked ++ quarantined.map QuarantinedEntry.entryId).Perm
    state.inbox.pendingIds
  recorded : result.2.inbox.quarantined = state.inbox.quarantined ++ quarantined
  acked_observed : ∀ entryId ∈ acked, ∃ dataPoint deliveryCount,
    .entry entryId dataPoint deliveryCount ∈ delivered
      ∧ Observes result.2.store.entries dataPoint
  quarantined_justified : ∀ record ∈ quarantined,
    (∃ error deliveryCount rawPayload,
      .poison record.entryId error deliveryCount rawPayload ∈ delivered)
    ∨ ∃ (dataPoint : BaseDataPoint) (deliveryCount : ℕ),
      .entry record.entryId dataPoint deliveryCount ∈ delivered
        ∧ call.maxInboxDeliveries ≤ deliveryCount ∧ call.FailsAlone delivered record.entryId
  applied_acked : result.1 = .ok () → ∀ entryId dataPoint deliveryCount,
    .entry entryId dataPoint deliveryCount ∈ delivered → call.Applies delivered entryId →
      entryId ∈ acked
  /-- Nothing but fencing makes a drain raise. -/
  propagated : ∀ error, result.1 = .error error → error.isStaleEpoch = true
  /-- A drain that returns has absorbed no fencing. -/
  applies_unfenced : result.1 = .ok () →
    call.BatchUnfenced (delivered.filterMap DeliveredInboxEntry.valid?)
      ∧ (call.batched delivered = false → ∀ entryId dataPoint deliveryCount,
        .entry entryId dataPoint deliveryCount ∈ delivered →
          ∀ error, (call.single entryId).faults.apply = some error → error.isStaleEpoch = false)
  acks_unfenced : ∀ entryId ∈ acked, call.ackFenced entryId = none
  quarantines_unfenced : ∀ record ∈ quarantined, (call.quarantine record.entryId).fenced = none
  /-- A drain that no fencing meets returns. -/
  undisturbed : call.Unfenced → state.Current call.epoch → result.1 = .ok ()

section Final

variable {call : DrainCall} {inbox : InboxState} {batched : Bool} {undisturbed : Prop}
  {order settled rest delivered : List DeliveredInboxEntry} {state : DrainState}

/-- The entries that do not stay pending are acked or quarantined. -/
theorem DrainCall.removed_perm (call : DrainCall) (batched : Bool)
    (entries : List DeliveredInboxEntry) :
  (call.idsOf batched .applied entries ++ call.idsOf batched .quarantined entries).Perm
    (call.removed batched entries)
  := by
  induction entries with
  | nil => rfl
  | cons entry entries ih =>
      simp only [idsOf, removed] at ih
      simp only [idsOf, removed, List.filter_cons]
      cases call.disposition batched entry with
      | applied => exact ih.cons _
      | quarantined => exact List.perm_middle.trans (ih.cons _)
      | redelivered => exact ih

/-- The settled entries that do not stay pending have left the inbox. -/
theorem Progress.places (hdraining : Draining call inbox undisturbed order)
    (horder : order = settled ++ rest)
    (h : Progress call inbox batched undisturbed settled state) :
  (state.inbox.pendingIds ++ call.removed batched settled).Perm inbox.pendingIds
  := by
  have hnodup := hdraining.delivered.nodup
  have hsettled : ∀ entryId ∈ call.removed batched settled, entryId ∈ inbox.pendingIds := by
    intro entryId hmem
    apply hdraining.order.subset
    rw [horder, List.map_append]
    apply List.mem_append_left
    apply DrainCall.removed_subset hmem
  have hremoved : (call.removed batched settled).Nodup := by
    have horderNodup := hdraining.order.nodup_iff.mpr hnodup
    rw [horder, List.map_append] at horderNodup
    apply List.Nodup.sublist _ (List.nodup_append.mp horderNodup).1
    apply List.Sublist.map
    apply List.filter_sublist
  have hpending : ∀ entryId, entryId ∈ state.inbox.pendingIds
      ↔ entryId ∈ inbox.pendingIds ∧ entryId ∉ call.removed batched settled := by
    intro entryId
    simp only [InboxState.pendingIds, h.messages, List.mem_map, List.mem_filter, decide_eq_true_eq]
    constructor
    · rintro ⟨message, ⟨hmem, hnot⟩, rfl⟩
      exact ⟨⟨message, hmem, rfl⟩, hnot⟩
    · rintro ⟨⟨message, hmem, rfl⟩, hnot⟩
      exact ⟨message, ⟨hmem, hnot⟩, rfl⟩
  rw [List.perm_ext_iff_of_nodup _ hnodup]
  · intro entryId
    rw [List.mem_append, hpending]
    constructor
    · rintro (⟨hmem, -⟩ | hmem)
      · exact hmem
      · exact hsettled entryId hmem
    · intro hmem
      by_cases hgone : entryId ∈ call.removed batched settled
      · exact Or.inr hgone
      · exact Or.inl ⟨hmem, hgone⟩
  · rw [List.nodup_append]
    refine ⟨(h.allDelivered hdraining.delivered).nodup, hremoved, ?_⟩
    rintro entryId hmem _ hmem' rfl
    exact ((hpending entryId).mp hmem).2 hmem'

/-- An entry that is settled as applied was observed. -/
theorem Progress.acked_observed (h : Progress call inbox batched undisturbed settled state)
    {entryId : ℕ} (hmem : entryId ∈ call.idsOf batched .applied settled) :
  ∃ dataPoint deliveryCount, .entry entryId dataPoint deliveryCount ∈ settled
    ∧ Observes state.store.entries dataPoint
  := by
  obtain ⟨entry, hentry, rfl⟩ := List.mem_map.mp hmem
  obtain ⟨hsettled, hdisposition⟩ := List.mem_filter.mp hentry
  have hdisposition := of_decide_eq_true hdisposition
  cases entry with
  | poison entryId error deliveryCount rawPayload => cases hdisposition
  | entry entryId dataPoint deliveryCount =>
      exact ⟨dataPoint, deliveryCount, hsettled, (h.accounted _ hsettled).1 hdisposition⟩

/-- An entry that is settled by quarantine is poison, or was applied alone at the cap. -/
theorem Progress.quarantined_justified
    (h : Progress call inbox (call.batched delivered) undisturbed settled state) {entryId : ℕ}
    (hmem : entryId ∈ call.idsOf (call.batched delivered) .quarantined settled) :
  (∃ error deliveryCount rawPayload, .poison entryId error deliveryCount rawPayload ∈ settled)
    ∨ ∃ (dataPoint : BaseDataPoint) (deliveryCount : ℕ),
      .entry entryId dataPoint deliveryCount ∈ settled
        ∧ call.maxInboxDeliveries ≤ deliveryCount ∧ call.FailsAlone delivered entryId
  := by
  obtain ⟨entry, hentry, rfl⟩ := List.mem_map.mp hmem
  obtain ⟨hsettled, hdisposition⟩ := List.mem_filter.mp hentry
  have hdisposition := of_decide_eq_true hdisposition
  cases entry with
  | poison entryId error deliveryCount rawPayload =>
      exact Or.inl ⟨error, deliveryCount, rawPayload, hsettled⟩
  | entry entryId dataPoint deliveryCount =>
      right
      have hunfenced := (h.accounted _ hsettled).2
      rw [DrainCall.disposition] at hdisposition
      split at hdisposition
      · cases hdisposition
      · rename_i hfails
        rw [Bool.or_eq_true, not_or, Bool.not_eq_true, Bool.not_eq_true] at hfails
        obtain ⟨hsingle, hfault⟩ := hfails
        split at hdisposition
        · rename_i hcap
          obtain ⟨error, herror⟩ := Option.isSome_iff_exists.mp (Option.isNone_eq_false_iff.mp hfault)
          exact ⟨dataPoint, deliveryCount, hsettled, hcap, hsingle, error, herror,
            hunfenced hsingle error herror⟩
        · cases hdisposition

end Final

/-- A drain isolates the delivered entries from one another, whichever applies, bookkeeping
appends and fencings fail. -/
theorem drain_isolates (services : DrainServices) (decode : Decoder) (call : DrainCall)
    {state : DrainState} (hagrees : Agrees state.mirror state.store)
    (hids : state.inbox.pendingIds.Nodup) {delivered : List DeliveredInboxEntry}
    {inbox : InboxState} (hdelivered : state.inbox.deliver decode = (.ok delivered, inbox)) :
  ∃ acked quarantined, DrainIsolated call state delivered
    (DrainState.drainInbox services decode call state) acked quarantined
  := by
  have hdelivers := InboxState.delivers hdelivered
  obtain ⟨hdraining, hdrain⟩ := drainInbox_progress services decode call hagrees hids hdelivered
  generalize DrainState.drainInbox services decode call state = result at hdrain ⊢
  obtain ⟨settled, rest, horder, h, hok, herror⟩ : ∃ settled rest,
      settlingOrder delivered = settled ++ rest
        ∧ Progress call inbox (call.batched delivered)
          (call.Unfenced ∧ state.Current call.epoch) settled result.2
        ∧ (result.1 = .ok () → settled = settlingOrder delivered
          ∧ call.BatchUnfenced (delivered.filterMap DeliveredInboxEntry.valid?))
        ∧ ∀ error, result.1 = .error error →
          error.isStaleEpoch = true ∧ ¬(call.Unfenced ∧ state.Current call.epoch) := by
    obtain ⟨outcome, final⟩ := result
    cases outcome with
    | ok _ =>
        obtain ⟨h, hunfenced⟩ := hdrain
        exact ⟨settlingOrder delivered, [], by simp, h, fun _ => ⟨rfl, hunfenced⟩, nofun⟩
    | error error =>
        obtain ⟨hstale, hdisturbed, settled, rest, horder, h⟩ := hdrain
        refine ⟨settled, rest, horder, h, nofun, ?_⟩
        rintro _ ⟨⟩
        exact ⟨hstale, hdisturbed⟩
  have hmem : ∀ entry ∈ settled, entry ∈ delivered := by
    intro entry hentry
    apply (settlingOrder_perm delivered).subset
    rw [horder]
    apply List.mem_append_left rest hentry
  obtain ⟨records, hrecords, hrecorded⟩ := h.quarantined
  use call.idsOf (call.batched delivered) .applied settled, records
  constructor
  · rw [hrecorded, List.append_assoc, ← hdelivers.pendingIds]
    apply List.Perm.trans _ (h.places hdraining horder)
    apply (call.removed_perm _ settled).append_left
  · rw [hrecords, hdelivers.quarantined]
  · intro entryId hacked
    obtain ⟨dataPoint, deliveryCount, hsettled, hobserved⟩ := h.acked_observed hacked
    exact ⟨dataPoint, deliveryCount, hmem _ hsettled, hobserved⟩
  · intro record hrecord
    have hid := List.mem_map_of_mem (f := QuarantinedEntry.entryId) hrecord
    rw [hrecorded] at hid
    rcases h.quarantined_justified hid with ⟨error, count, raw, hsettled⟩ | hfailed
    · exact Or.inl ⟨error, count, raw, hmem _ hsettled⟩
    · obtain ⟨dataPoint, deliveryCount, hsettled, hcap, hfails⟩ := hfailed
      exact Or.inr ⟨dataPoint, deliveryCount, hmem _ hsettled, hcap, hfails⟩
  · intro houtcome entryId dataPoint deliveryCount hentry happlies
    rw [(hok houtcome).1]
    apply List.mem_map.mpr
    refine ⟨_, List.mem_filter.mpr ⟨(settlingOrder_perm delivered).symm.subset hentry, ?_⟩, rfl⟩
    apply decide_eq_true
    rw [DrainCall.disposition, if_pos]
    rcases happlies with hbatched | hfault
    · rw [hbatched, Bool.true_or]
    · rw [hfault, Option.isNone_none, Bool.or_true]
  · intro error hraised
    exact (herror error hraised).1
  · intro houtcome
    use (hok houtcome).2
    intro hsingle entryId dataPoint deliveryCount hentry
    have hsettled := (settlingOrder_perm delivered).symm.subset hentry
    rw [← (hok houtcome).1] at hsettled
    apply (h.accounted _ hsettled).2 hsingle
  · exact h.acks
  · intro record hrecord
    apply h.quarantines
    rw [← hrecorded]
    apply List.mem_map_of_mem hrecord
  · intro hunfenced hcurrent
    cases houtcome : result.1 with
    | ok _ => rfl
    | error error => exact absurd ⟨hunfenced, hcurrent⟩ (herror error houtcome).2

/-- A fax of a page, received at a time. -/
def faxed (page : String) (received : Timestamp) : BaseDataPoint where
  type := "fax"
  value := .str page
  retrievedBy := "machine"
  firstRetrieved := received
  lastRetrieved := received
  hashed := .str page
  hashable := makeHashable_str page

/-- Services that keep faxes as they are. -/
def faxServices : DrainServices where
  leaves :=
    { config := fun _ => ⟨false, false, true⟩
      dump := fun _ value => value
      parse := fun _ value => .ok value }
  sealing :=
    { sessionId := "s"
      literals := ⟨fun _ => "", fun _ => true⟩
      cipher := { encrypt := id, decrypt := id, mac := id }
      sha256 := id
      dumps := fun _ => ""
      loads := .str }
  auditDetail := fun dataPoint _ => dataPoint.type
  quarantineDetail := fun _ reason _ => reason

/-- A payload is the page of a fax, unless it is noise. -/
def faxDecoder : Decoder := fun payload =>
  if payload = "noise" then .malformed "no JSON" else .dataPoint (faxed payload 1)

/-- A fax delivered twice before, noise, and a fax not delivered yet. -/
def faxState : DrainState where
  mirror := (SessionStateMirror.initial "s").rehydrate .initial
  store := .initial
  audit := .initial
  archive := .initial
  coalescedAudits := .empty
  reobservedAudits := .empty
  inbox := ⟨[⟨0, "smudge", 2, true⟩, ⟨1, "noise", 0, false⟩, ⟨2, "page", 0, false⟩], [], 0, 3⟩

/-- The batch cannot be applied, nor the first fax; the audit of the second one fails. -/
def faxCall : DrainCall where
  epoch := 1
  maxInboxDeliveries := 3
  batch := ⟨5, ⟨some (.typeError "batch"), none, none⟩⟩
  single := fun entryId =>
    if entryId = 0 then ⟨6, ⟨some (.typeError "smudge"), none, none⟩⟩
    else ⟨7, ⟨none, some (.typeError "audit", .initial), none⟩⟩
  ackFenced := fun _ => none
  quarantine := fun _ => ⟨8, none, none⟩

theorem drain_isolates_faxes :
  ∃ delivered acked quarantined, DrainIsolated faxCall faxState delivered
    (DrainState.drainInbox faxServices faxDecoder faxCall faxState) acked quarantined
  := by
  use [.entry 0 (faxed "smudge" 1) 3, .poison 1 "no JSON" 1 "noise", .entry 2 (faxed "page" 1) 1]
  apply drain_isolates faxServices faxDecoder faxCall
    (agrees_rehydrate (.initial "s") SessionState.initial_wellFormed) (by decide) rfl

end Orcastork
