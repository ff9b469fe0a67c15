import Orcastork.Library.Noninterference
import Orcastork.Orchestrator.RunOps

/-!
# A superseded run and its successor

Two runs of one session share its backends: a predecessor that holds `old`, and a successor
that holds the higher epoch `new` and has had a guarded write accepted in every fence scope it
uses. Their calls interleave with deliveries to the inbox and with the clock.

The predecessor is inert if, at every point, the backends look as if it had taken no further
step. Its guarded calls are all rejected, but four kinds of call are not guarded against the
successor's epoch: a delivery from the inbox, the clearing of a contribution marker, and a
durable write to a key the successor has not written. The predecessor is inert exactly as long
as none of these finds anything to change (`predecessor_inert_iff`).
-/

namespace Orcastork

/-- A step of one of the two runs, or of their surroundings. -/
inductive SupersededStep where
  | predecessor (op : RunOp)
  | successor (op : RunOp)
  | deliver (payload : String)
  | elapse (ticks : ℕ)

/-- The two runs of a session: their services, their epochs, and the scopes of the durable
keys the successor uses. -/
structure Takeover where
  services : Services
  old : Epoch
  new : Epoch
  keyScopes : List String

namespace Takeover

variable (takeover : Takeover)

/-- The durable scopes the successor uses: its keys' and the session's contribution scope. -/
def scopes : List String :=
  DurableStore.contributionScope takeover.services.sessionId :: takeover.keyScopes

/-- The backends after a step. -/
def step (backends : Backends) : SupersededStep → Backends
  | .predecessor op => backends.exec takeover.services takeover.old op
  | .successor op => backends.exec takeover.services takeover.new op
  | .deliver payload => { backends with inbox := (backends.inbox.append payload).2 }
  | .elapse ticks => { backends with now := backends.now + ticks }

/-- The steps of the predecessor. -/
def ofPredecessor : SupersededStep → Bool
  | .predecessor _ => true
  | _ => false

/-- The successor makes its durable calls to the keys it uses. -/
def Allowed : SupersededStep → Prop
  | .successor (.durable call) => call.scope ∈ takeover.keyScopes
  | _ => True

/-- The predecessor is superseded: the successor's epoch was minted, a lease, if there is one,
is the successor's, and every fence the successor uses is above the predecessor's epoch. -/
structure Superseded (backends : Backends) : Prop where
  minted : takeover.old < backends.lock.epochCounter
  lease : ∀ lease ∈ backends.lock.lease, lease.epoch ≠ takeover.old
  store : takeover.old < backends.store.maxEpoch
  inbox : takeover.old < backends.inbox.maxEpoch
  durable : ∀ scope ∈ takeover.scopes, takeover.old < backends.durable.fence scope
  audit : takeover.old < backends.audit.maxEpoch
  archive : takeover.old < backends.archive.maxEpoch

/-- Two durable stores look alike: the same outputs and markers, and the same fences in the
scopes the successor uses. -/
structure DurableAlike (store other : DurableStore) : Prop where
  documents : store.documents = other.documents
  sets : store.sets = other.sets
  contributions : store.contributions = other.contributions
  fence : ∀ scope ∈ takeover.scopes, store.fence scope = other.fence scope

/-- Two backends look alike to the successor. -/
structure Alike (backends other : Backends) : Prop where
  now : backends.now = other.now
  lock : backends.lock = other.lock
  store : backends.store = other.store
  inbox : backends.inbox = other.inbox
  durable : takeover.DurableAlike backends.durable other.durable
  audit : backends.audit = other.audit
  archive : ArchiveState.ReadsAlike backends.archive other.archive

/-- The step is an unguarded call of the predecessor that finds something to change: an entry
to claim or to present again, a contribution marker to clear, or a durable key that no higher
epoch has written. -/
def Interferes (backends : Backends) : SupersededStep → Prop
  | .predecessor (.consume maxEntries) =>
    maxEntries ≠ some 0 ∧ ∃ message ∈ backends.inbox.messages, message.claimed = false
  | .predecessor .reclaim => ∃ message ∈ backends.inbox.messages, message.claimed = true
  | .predecessor (.clearContribution operatorId) =>
    (takeover.services.sessionId, operatorId) ∈ backends.durable.contributions
  | .predecessor (.durable call) =>
    backends.durable.fence call.scope ≤ takeover.old ∧ backends.durable.Writes call
  | _ => False

variable {takeover}

/-! ### The predecessor stays superseded -/

/-- No call of either run, with whatever epoch, lifts the fences off the predecessor. -/
theorem Superseded.exec {backends : Backends} (h : takeover.Superseded backends)
    (epoch : Epoch) (op : RunOp) :
  takeover.Superseded (backends.exec takeover.services epoch op)
  := by
  cases op with
  | renew =>
      refine ⟨?_, ?_, h.store, h.inbox, h.durable, h.audit, h.archive⟩
      · simp only [Backends.exec, LockState.epochCounter_settle_renew]
        exact h.minted
      · intro lease hlease
        have hepoch := LockState.lease_settle_renew backends.lock takeover.services.sessionId
          epoch backends.now takeover.services.ttl
        simp only [Backends.exec] at hlease
        rw [hlease, Option.map_some, eq_comm, Option.map_eq_some_iff] at hepoch
        obtain ⟨before, hbefore, hsame⟩ := hepoch
        rw [← hsame]
        apply h.lease
        exact hbefore
  | release =>
      refine ⟨?_, ?_, h.store, h.inbox, h.durable, h.audit, h.archive⟩
      · apply h.minted.trans_eq
        exact (LockState.currentEpoch_release backends.lock epoch).symm
      · intro lease hlease
        apply h.lease
        exact LockState.lease_release hlease
  | markComplete =>
      refine ⟨?_, ?_, h.store, h.inbox, h.durable, h.audit, h.archive⟩
      · simp only [Backends.exec, LockState.epochCounter_settle_markComplete]
        exact h.minted
      · simp only [Backends.exec, LockState.lease_settle_markComplete]
        exact h.lease
  | store op =>
      refine ⟨h.minted, h.lease, ?_, h.inbox, h.durable, h.audit, h.archive⟩
      apply h.store.trans_le
      apply SessionState.le_maxEpoch_exec
  | consume maxEntries => exact ⟨h.minted, h.lease, h.store, h.inbox, h.durable, h.audit, h.archive⟩
  | reclaim => exact ⟨h.minted, h.lease, h.store, h.inbox, h.durable, h.audit, h.archive⟩
  | ack entryId =>
      refine ⟨h.minted, h.lease, h.store, ?_, h.durable, h.audit, h.archive⟩
      apply h.inbox.trans_le
      apply InboxState.le_maxEpoch_ack
  | quarantine entryId reason =>
      refine ⟨h.minted, h.lease, h.store, ?_, h.durable, h.audit, h.archive⟩
      apply h.inbox.trans_le
      apply InboxState.le_maxEpoch_quarantine
  | durable call =>
      refine ⟨h.minted, h.lease, h.store, h.inbox, ?_, h.audit, h.archive⟩
      intro scope hscope
      apply (h.durable scope hscope).trans_le
      apply DurableStore.le_fence_perform
  | markContribution operatorId =>
      refine ⟨h.minted, h.lease, h.store, h.inbox, ?_, h.audit, h.archive⟩
      intro scope hscope
      apply (h.durable scope hscope).trans_le
      apply DurableStore.le_fence_markContribution
  | clearContribution operatorId =>
      exact ⟨h.minted, h.lease, h.store, h.inbox, h.durable, h.audit, h.archive⟩
  | appendAudit entries =>
      refine ⟨h.minted, h.lease, h.store, h.inbox, h.durable, ?_, h.archive⟩
      apply h.audit.trans_le
      apply AuditState.maxEpoch_appendMany
  | archive entries =>
      refine ⟨h.minted, h.lease, h.store, h.inbox, h.durable, h.audit, ?_⟩
      apply h.archive.trans_le
      apply ArchiveState.maxEpoch_archiveMany
  | flush => exact ⟨h.minted, h.lease, h.store, h.inbox, h.durable, h.audit, h.archive⟩

theorem Superseded.step {backends : Backends} (h : takeover.Superseded backends)
    (a : SupersededStep) :
  takeover.Superseded (takeover.step backends a)
  := by
  cases a with
  | predecessor op => exact h.exec takeover.old op
  | successor op => exact h.exec takeover.new op
  | deliver payload =>
      exact ⟨h.minted, h.lease, h.store, h.inbox, h.durable, h.audit, h.archive⟩
  | elapse ticks =>
      exact ⟨h.minted, h.lease, h.store, h.inbox, h.durable, h.audit, h.archive⟩

/-! ### Alike backends stay alike -/

theorem DurableAlike.refl (store : DurableStore) :
  takeover.DurableAlike store store
  := ⟨rfl, rfl, rfl, fun _ _ => rfl⟩

theorem DurableAlike.symm {store other : DurableStore}
    (h : takeover.DurableAlike store other) :
  takeover.DurableAlike other store
  := by
  refine ⟨h.documents.symm, h.sets.symm, h.contributions.symm, ?_⟩
  intro scope hscope
  rw [h.fence scope hscope]

theorem DurableAlike.trans {store other third : DurableStore}
    (h : takeover.DurableAlike store other) (h' : takeover.DurableAlike other third) :
  takeover.DurableAlike store third
  := by
  refine ⟨h.documents.trans h'.documents, h.sets.trans h'.sets,
    h.contributions.trans h'.contributions, ?_⟩
  intro scope hscope
  rw [h.fence scope hscope, h'.fence scope hscope]

theorem alike_equivalence :
  Equivalence takeover.Alike
  := by
  constructor
  · intro backends
    exact ⟨rfl, rfl, rfl, rfl, .refl _, rfl, rfl, rfl⟩
  · intro backends other h
    exact ⟨h.now.symm, h.lock.symm, h.store.symm, h.inbox.symm, h.durable.symm, h.audit.symm,
      h.archive.1.symm, h.archive.2.symm⟩
  · intro backends other third h h'
    exact ⟨h.now.trans h'.now, h.lock.trans h'.lock, h.store.trans h'.store,
      h.inbox.trans h'.inbox, h.durable.trans h'.durable, h.audit.trans h'.audit,
      h.archive.1.trans h'.archive.1, h.archive.2.trans h'.archive.2⟩

/-- A call in a scope the successor uses has the same outcome on stores that look alike. -/
theorem DurableAlike.perform {store other : DurableStore}
    (h : takeover.DurableAlike store other) {call : DurableStore.Call}
    (hscope : call.scope ∈ takeover.scopes) (epoch : Epoch) :
  takeover.DurableAlike (store.perform epoch call).2 (other.perform epoch call).2
  := by
  have hfence := h.fence call.scope hscope
  have hfences : ∀ scope ∈ takeover.scopes, (store.perform epoch call).2.fence scope
      = (other.perform epoch call).2.fence scope := by
    intro scope hmem
    rw [DurableStore.fence_perform, DurableStore.fence_perform, h.fence scope hmem]
  rcases Nat.lt_or_ge epoch (store.fence call.scope) with hlt | hle
  · rw [DurableStore.perform_of_lt hlt, DurableStore.perform_of_lt (hfence ▸ hlt)]
    exact h
  · have hle' : other.fence call.scope ≤ epoch := by
      rw [← hfence]
      exact hle
    cases call with
    | upsert table key document expectedVersion status updatedAt =>
        have hversion : store.versionOf table key = other.versionOf table key := by
          rw [DurableStore.versionOf, DurableStore.versionOf, h.documents]
        by_cases hmatch : store.versionOf table key = expectedVersion
        · refine ⟨?_, ?_, ?_, hfences⟩
          · rw [DurableStore.perform, DurableStore.perform, DurableStore.upsert_of_eq hle hmatch,
              DurableStore.upsert_of_eq hle' (hversion ▸ hmatch)]
            simp only
            rw [h.documents, hversion]
          · rw [DurableStore.perform, DurableStore.perform, DurableStore.upsert_of_eq hle hmatch,
              DurableStore.upsert_of_eq hle' (hversion ▸ hmatch)]
            exact h.sets
          · rw [DurableStore.contributions_perform, DurableStore.contributions_perform]
            exact h.contributions
        · refine ⟨?_, ?_, ?_, hfences⟩
          · rw [DurableStore.perform, DurableStore.perform, DurableStore.upsert_of_ne hle hmatch,
              DurableStore.upsert_of_ne hle' (hversion ▸ hmatch)]
            exact h.documents
          · rw [DurableStore.perform, DurableStore.perform, DurableStore.upsert_of_ne hle hmatch,
              DurableStore.upsert_of_ne hle' (hversion ▸ hmatch)]
            exact h.sets
          · rw [DurableStore.contributions_perform, DurableStore.contributions_perform]
            exact h.contributions
    | addToSet table key fieldName value =>
        refine ⟨?_, ?_, ?_, hfences⟩
        · rw [DurableStore.perform, DurableStore.perform, DurableStore.addToSet_of_le hle,
            DurableStore.addToSet_of_le hle']
          exact h.documents
        · rw [DurableStore.perform, DurableStore.perform, DurableStore.addToSet_of_le hle,
            DurableStore.addToSet_of_le hle']
          simp only
          rw [h.sets]
        · rw [DurableStore.contributions_perform, DurableStore.contributions_perform]
          exact h.contributions

theorem DurableAlike.markContribution {store other : DurableStore}
    (h : takeover.DurableAlike store other) (operatorId : OperatorId) (epoch : Epoch) :
  takeover.DurableAlike
    (store.markContribution takeover.services.sessionId operatorId epoch).2
    (other.markContribution takeover.services.sessionId operatorId epoch).2
  := by
  have hfence := h.fence (DurableStore.contributionScope takeover.services.sessionId)
    List.mem_cons_self
  rcases Nat.lt_or_ge epoch
      (store.fence (DurableStore.contributionScope takeover.services.sessionId)) with hlt | hle
  · rw [DurableStore.markContribution_of_lt hlt,
      DurableStore.markContribution_of_lt (hfence ▸ hlt)]
    exact h
  · have hle' := hle
    rw [hfence] at hle'
    refine ⟨?_, ?_, ?_, ?_⟩
    · rw [DurableStore.markContribution_of_le hle, DurableStore.markContribution_of_le hle']
      exact h.documents
    · rw [DurableStore.markContribution_of_le hle, DurableStore.markContribution_of_le hle']
      exact h.sets
    · rw [DurableStore.markContribution_of_le hle, DurableStore.markContribution_of_le hle']
      simp only
      rw [h.contributions]
    · intro scope hscope
      rw [DurableStore.fence_markContribution, DurableStore.fence_markContribution,
        h.fence scope hscope]

theorem DurableAlike.clearContribution {store other : DurableStore}
    (h : takeover.DurableAlike store other) (sessionId : SessionId) (operatorId : OperatorId) :
  takeover.DurableAlike (store.clearContribution sessionId operatorId)
    (other.clearContribution sessionId operatorId)
  := by
  refine ⟨h.documents, h.sets, ?_, h.fence⟩
  rw [DurableStore.clearContribution, DurableStore.clearContribution, h.contributions]

/-- A step that is not the predecessor's keeps backends alike. -/
theorem Alike.step {backends other : Backends} (h : takeover.Alike backends other)
    {a : SupersededStep} (hallowed : takeover.Allowed a) (hown : ofPredecessor a = false) :
  takeover.Alike (takeover.step backends a) (takeover.step other a)
  := by
  obtain ⟨now, lock, store, inbox, durable, audit, archive⟩ := backends
  obtain ⟨now', lock', store', inbox', durable', audit', archive'⟩ := other
  obtain ⟨rfl, rfl, rfl, rfl, hdurable, rfl, harchive⟩ := h
  cases a with
  | predecessor op => cases hown
  | deliver payload => exact ⟨rfl, rfl, rfl, rfl, hdurable, rfl, harchive⟩
  | elapse ticks => exact ⟨rfl, rfl, rfl, rfl, hdurable, rfl, harchive⟩
  | successor op =>
      cases op with
      | durable call =>
          refine ⟨rfl, rfl, rfl, rfl, ?_, rfl, harchive⟩
          apply hdurable.perform
          exact List.mem_cons_of_mem _ hallowed
      | markContribution operatorId =>
          refine ⟨rfl, rfl, rfl, rfl, ?_, rfl, harchive⟩
          apply hdurable.markContribution
      | clearContribution operatorId =>
          refine ⟨rfl, rfl, rfl, rfl, ?_, rfl, harchive⟩
          apply hdurable.clearContribution
      | archive entries =>
          refine ⟨rfl, rfl, rfl, rfl, hdurable, rfl, ?_⟩
          apply ArchiveState.readsAlike_archiveMany
          exact harchive
      | _ => exact ⟨rfl, rfl, rfl, rfl, hdurable, rfl, harchive⟩

/-! ### What the predecessor's calls change -/

/-- A durable call of the predecessor that is rejected, or writes nothing new, is not seen. -/
theorem durableAlike_perform {store : DurableStore} {call : DurableStore.Call}
    (hfence : ∀ scope ∈ takeover.scopes, takeover.old < store.fence scope)
    (h : ¬(store.fence call.scope ≤ takeover.old ∧ store.Writes call)) :
  takeover.DurableAlike (store.perform takeover.old call).2 store
  := by
  rcases Nat.lt_or_ge takeover.old (store.fence call.scope) with hlt | hle
  · rw [DurableStore.perform_of_lt hlt]
    exact .refl store
  · have hwrites : ¬store.Writes call := by
      intro hwrites
      exact h ⟨hle, hwrites⟩
    obtain ⟨hdocuments, hsets⟩ := (DurableStore.perform_eq_iff hle).mpr hwrites
    refine ⟨hdocuments, hsets, DurableStore.contributions_perform _ _ _, ?_⟩
    intro scope hscope
    have hne : call.scope ≠ scope := by
      rintro rfl
      exact (hfence _ hscope).not_ge hle
    rw [DurableStore.fence_perform, if_neg hne]

/-- A step of the predecessor that does not interfere is not seen. -/
theorem Superseded.respects {backends : Backends} (h : takeover.Superseded backends)
    {a : SupersededStep} (hforeign : ofPredecessor a = true)
    (hharmless : ¬takeover.Interferes backends a) :
  takeover.Alike (takeover.step backends a) backends
  := by
  have halike := (@alike_equivalence takeover).refl backends
  cases a with
  | successor op => cases hforeign
  | deliver payload => cases hforeign
  | elapse ticks => cases hforeign
  | predecessor op =>
      rw [Takeover.step]
      cases op with
      | renew =>
          rw [Backends.exec, LockState.settle_renew_of_ne h.lease]
          exact halike
      | release =>
          rw [Backends.exec, LockState.release_of_ne h.lease]
          exact halike
      | markComplete =>
          rw [Backends.exec, LockState.settle_markComplete_of_lt h.minted]
          exact halike
      | store op =>
          rw [Backends.exec, SessionState.exec_of_lt h.store]
          exact halike
      | consume maxEntries =>
          have hall : maxEntries = some 0
              ∨ ∀ message ∈ backends.inbox.messages, message.claimed = true := by
            simp only [Interferes, not_and, not_exists, Bool.not_eq_false] at hharmless
            exact or_iff_not_imp_left.mpr hharmless
          rw [Backends.exec, InboxState.consume_eq_iff.mpr hall]
          exact halike
      | reclaim =>
          have hall : ∀ message ∈ backends.inbox.messages, message.claimed = false := by
            simp only [Interferes, not_exists, not_and, Bool.not_eq_true] at hharmless
            exact hharmless
          rw [Backends.exec, InboxState.reclaim_eq_iff.mpr hall]
          exact halike
      | ack entryId =>
          rw [Backends.exec, InboxState.settle_ack_of_lt h.inbox]
          exact halike
      | quarantine entryId reason =>
          rw [Backends.exec, InboxState.settle_quarantine_of_lt h.inbox]
          exact halike
      | durable call =>
          refine ⟨rfl, rfl, rfl, rfl, ?_, rfl, halike.archive⟩
          exact durableAlike_perform h.durable hharmless
      | markContribution operatorId =>
          have hfence := h.durable _ List.mem_cons_self
          rw [Backends.exec, DurableStore.markContribution_of_lt hfence]
          exact halike
      | clearContribution operatorId =>
          rw [Backends.exec, DurableStore.clearContribution,
            Finset.erase_eq_of_notMem hharmless]
          exact halike
      | appendAudit entries =>
          have hepoch : ∀ entry ∈ entries.map
              (fun entry : AuditLogEntry => { entry with epoch := takeover.old }),
              entry.epoch = takeover.old := by
            simp
          rw [Backends.exec, AuditState.appendMany_of_lt h.audit hepoch]
          exact halike
      | archive entries =>
          have hepoch : ∀ entry ∈ entries.map
              (fun entry : ArchivedDataPoint => { entry with epoch := takeover.old }),
              entry.epoch = takeover.old := by
            simp
          rw [Backends.exec, ArchiveState.archiveMany_of_lt h.archive hepoch]
          exact halike
      | flush => exact ⟨rfl, rfl, rfl, rfl, .refl _, rfl, rfl, rfl⟩

/-- A step of the predecessor that interferes is seen. -/
theorem not_alike_of_interferes {backends : Backends} {a : SupersededStep}
    (h : takeover.Interferes backends a) :
  ¬takeover.Alike (takeover.step backends a) backends
  := by
  intro halike
  cases a with
  | successor op => exact h
  | deliver payload => exact h
  | elapse ticks => exact h
  | predecessor op =>
      cases op with
      | consume maxEntries =>
          obtain ⟨hlimit, message, hmem, hunclaimed⟩ := h
          rcases InboxState.consume_eq_iff.mp halike.inbox with hzero | hall
          · exact hlimit hzero
          · rw [hall message hmem] at hunclaimed
            cases hunclaimed
      | reclaim =>
          obtain ⟨message, hmem, hclaimed⟩ := h
          rw [InboxState.reclaim_eq_iff.mp halike.inbox message hmem] at hclaimed
          cases hclaimed
      | durable call =>
          obtain ⟨hle, hwrites⟩ := h
          apply (DurableStore.perform_eq_iff hle).mp _ hwrites
          exact ⟨halike.durable.documents, halike.durable.sets⟩
      | clearContribution operatorId =>
          have hcontributions : backends.durable.contributions.erase
              (takeover.services.sessionId, operatorId) = backends.durable.contributions :=
            halike.durable.contributions
          rw [Finset.erase_eq_self] at hcontributions
          exact hcontributions h
      | _ => exact h

/-- The takeover as an unwinding. -/
theorem unwinding :
  Unwinding takeover.step ofPredecessor takeover.Allowed takeover.Superseded takeover.Alike
    takeover.Interferes
  where
  equivalence := alike_equivalence
  inv_step := fun h _ => h.step _
  consistent := fun _ _ hallowed hown halike => halike.step hallowed hown
  respects := fun h _ hforeign hharmless => h.respects hforeign hharmless
  exact := fun _ _ hharmful => not_alike_of_interferes hharmful

/-- A superseded run is inert, that is the backends look at every point as if it had taken no
further step, exactly when none of its steps is an unguarded call that finds something to
change. -/
theorem predecessor_inert_iff (takeover : Takeover) {backends : Backends}
    (hsuperseded : takeover.Superseded backends) (steps : List SupersededStep)
    (hallowed : ∀ a ∈ steps, takeover.Allowed a) :
  (∀ part, part <+: steps → takeover.Alike (part.foldl takeover.step backends)
      ((Unwinding.own ofPredecessor part).foldl takeover.step backends))
    ↔ ∀ before a after, steps = before ++ a :: after → ofPredecessor a = true →
      ¬takeover.Interferes (before.foldl takeover.step backends) a
  := by
  apply unwinding.noninterference_iff hsuperseded hallowed

/-! ### A takeover -/

/-- A session whose first lease lapsed, so that a second run took it over. -/
def lapsed : Takeover where
  services := ⟨"session", 10, fun _ => .malformed "no JSON", id⟩
  old := 1
  new := 2
  keyScopes := [DurableStore.keyScope "reports" "daily"]

/-- The lock of that session: the second epoch holds the lease. -/
def lapsedLock : LockState :=
  settle .initial (do
    let (_, lock) ← LockState.initial.acquire "session" 0 10
    let (_, lock) ← lock.acquire "session" 20 10
    return lock)

/-- The guarded writes of the second run, one in each fence scope it uses. -/
def guardedWrites : List RunOp :=
  [.store (.setWatermark "fetch" 0), .ack 0,
    .durable (.upsert "reports" "daily" .empty 0 none none), .markContribution "summary",
    .appendAudit [⟨2, 20, "operator_run", "fetch"⟩],
    .archive [⟨"address", "h", .str "a", "fetch", 20, 20, false, 2⟩]]

/-- The backends once the second run has made its guarded writes. -/
def takenOver : Backends :=
  guardedWrites.foldl (fun backends op => backends.exec lapsed.services lapsed.new op)
    { Backends.initial with now := 20, lock := lapsedLock }

theorem superseded_takenOver :
  lapsed.Superseded takenOver
  := by
  refine ⟨by decide, by decide, by decide, by decide, ?_, by decide, by decide⟩
  decide

/-- An inbox entry lands, and the first run prepares a re-drive for it: it clears the marker of
the contribution the second run has just made. -/
theorem predecessor_clears_marker :
  lapsed.Superseded takenOver
    ∧ ¬lapsed.Alike
        ([.deliver "entry", .predecessor (.clearContribution "summary")].foldl lapsed.step
          takenOver)
        ([.deliver "entry"].foldl lapsed.step takenOver)
  := by
  constructor
  · exact superseded_takenOver
  · intro halike
    have hcontributions := halike.durable.contributions
    revert hcontributions
    decide

theorem predecessor_inert_iff_lapsed :
  (∀ part, part <+: [.deliver "entry", .predecessor (.store (.commitEffect "mail"))] →
      lapsed.Alike (part.foldl lapsed.step takenOver)
        ((Unwinding.own ofPredecessor part).foldl lapsed.step takenOver))
    ↔ ∀ before a after,
        [.deliver "entry", .predecessor (.store (.commitEffect "mail"))] = before ++ a :: after →
        ofPredecessor a = true → ¬lapsed.Interferes (before.foldl lapsed.step takenOver) a
  := by
  apply predecessor_inert_iff lapsed superseded_takenOver
  intro a ha
  simp only [List.mem_cons, List.not_mem_nil, or_false] at ha
  obtain rfl | rfl := ha
  · exact trivial
  · exact trivial

end Takeover

end Orcastork
