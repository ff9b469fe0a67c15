import Orcastork.Library.Correspondence
import Orcastork.Library.Raising
import Orcastork.Orchestrator.AuditTrail
import Orcastork.Orchestrator.Emissions

/-!
# Merges of two executions side by side

Two executions are given the same DataPoints, except that the values of PII types differ. A
`Pairing` says which values stand in for each other: of a type that is not PII only a value for
itself, and of any type in the same pattern of equality, so that two values of the one execution
are the same exactly when those of the other are. Then the keyed merge finds the same DataPoints
new in both, the same rows are counted and written, and the same calls raise.
-/

namespace Orcastork

/-- Two values are the same value of a DataPoint: they have normal forms, which are equal. -/
def Value.Same (v w : Value) : Prop :=
  ∃ h k, makeHashable v = .ok h ∧ makeHashable w = .ok k ∧ h.eqKey = k.eqKey

/-- A value has a normal form exactly when it is the same as itself. -/
theorem Value.same_self_iff {v : Value} :
  v.Same v ↔ ∃ hashed, makeHashable v = .ok hashed
  := by
  constructor
  · rintro ⟨hashed, _, h, _⟩
    use hashed
  · rintro ⟨hashed, h⟩
    use hashed, hashed

/-- Which values of two executions stand in for each other, by type. -/
structure Pairing (leaves : Leaves) where
  related : DataPointType → Value → Value → Prop
  plain : ∀ {type v v'}, (leaves.config type).pii = false → related type v v' → v = v'
  pattern : ∀ {type v v' w w'}, related type v v' → related type w w' →
    (v.Same w ↔ v'.Same w')

open Raising (Outcomes)

namespace Pairing

variable {leaves : Leaves} (pairing : Pairing leaves)

/-- Two DataPoints differ in a value at most, and the one value stands in for the other. -/
structure DataPoints (d d' : BaseDataPoint) : Prop where
  type : d.type = d'.type
  value : pairing.related d.type d.value d'.value
  retrievedBy : d.retrievedBy = d'.retrievedBy
  firstRetrieved : d.firstRetrieved = d'.firstRetrieved
  lastRetrieved : d.lastRetrieved = d'.lastRetrieved

/-- The identities of two such DataPoints. -/
def Keys (key key' : IdentityKey) : Prop :=
  ∃ d d', pairing.DataPoints d d' ∧ identityKey d = key ∧ identityKey d' = key'

/-- Two entries that hold such DataPoints. -/
def Holding {E : Type} (dataPoint : E → BaseDataPoint) (entry entry' : E) : Prop :=
  pairing.DataPoints (dataPoint entry) (dataPoint entry')

variable {pairing}

/-- DataPoints of one type have one identity if their values are the same. -/
theorem identityKey_eq_iff {d e : BaseDataPoint} :
  identityKey d = identityKey e ↔ d.type = e.type ∧ d.value.Same e.value
  := by
  rw [identityKey, identityKey, Prod.mk.injEq]
  apply and_congr_right
  intro _
  constructor
  · intro h
    use d.hashed, e.hashed, d.hashable, e.hashable
  · rintro ⟨h, k, hd, he, heq⟩
    rw [d.hashable] at hd
    rw [e.hashable] at he
    cases hd
    cases he
    apply heq

theorem DataPoints.keys {d d' : BaseDataPoint} (h : pairing.DataPoints d d') :
  pairing.Keys (identityKey d) (identityKey d')
  := ⟨d, d', h, rfl, rfl⟩

theorem DataPoints.identityKey_iff {d d' e e' : BaseDataPoint} (h : pairing.DataPoints d d')
    (h' : pairing.DataPoints e e') :
  identityKey d = identityKey e ↔ identityKey d' = identityKey e'
  := by
  rw [identityKey_eq_iff, identityKey_eq_iff, h.type, h'.type]
  apply and_congr_right
  intro htype
  apply pairing.pattern (h.type ▸ h.value)
  rw [htype, ← h'.type]
  apply h'.value

/-- The identities are paired one to one. -/
theorem biUnique_keys (pairing : Pairing leaves) :
  Relator.BiUnique pairing.Keys
  := by
  constructor
  · rintro _ _ _ ⟨d, d', h, rfl, rfl⟩ ⟨e, e', h', rfl, heq⟩
    apply (h.identityKey_iff h').mpr heq.symm
  · rintro _ _ _ ⟨d, d', h, rfl, rfl⟩ ⟨e, e', h', heq, rfl⟩
    apply (h.identityKey_iff h').mp heq.symm

theorem DataPoints.reobserved {d d' : BaseDataPoint} (h : pairing.DataPoints d d')
    (at' : Timestamp) :
  pairing.DataPoints (d.reobserved at') (d'.reobserved at')
  := by
  constructor
  · apply h.type
  · apply h.value
  · apply h.retrievedBy
  · apply h.firstRetrieved
  · rw [BaseDataPoint.reobserved, BaseDataPoint.reobserved, h.lastRetrieved]

/-! ### The mirror and the store -/

variable (pairing) in
/-- Two mirrors, as far as a write goes. -/
structure Mirrors (mirror mirror' : SessionStateMirror) : Prop where
  entries : mirror.entries.Corresponds pairing.Keys (pairing.Holding MirrorEntry.dataPoint)
    mirror'.entries
  hydrated : mirror.hydrated = mirror'.hydrated

variable (pairing) in
/-- Two stores, as far as a write goes. -/
structure Stores (store store' : SessionState) : Prop where
  entries : store.entries.Corresponds pairing.Keys (pairing.Holding Entry.dataPoint)
    store'.entries
  revision : store.revision = store'.revision
  maxEpoch : store.maxEpoch = store'.maxEpoch

/-- The DataPoints of two batches were found to be new, freshened or known alike. -/
def SameKinds (outcomes outcomes' : List MergeResult) : Prop :=
  List.Forall₂ (fun outcome outcome' => outcome.kind = outcome'.kind) outcomes outcomes'

variable (pairing) in
/-- Two batches that were resolved. -/
structure Resolutions (resolution resolution' : Resolution) : Prop where
  outcomes : SameKinds resolution.outcomes resolution'.outcomes
  added : resolution.added.Corresponds pairing.Keys pairing.DataPoints resolution'.added
  updated : resolution.updated.Corresponds pairing.Keys pairing.DataPoints resolution'.updated

theorem SameKinds.append {outcomes outcomes' : List MergeResult} {outcome outcome' : MergeResult}
    (h : SameKinds outcomes outcomes') (hkind : outcome.kind = outcome'.kind) :
  SameKinds (outcomes ++ [outcome]) (outcomes' ++ [outcome'])
  := List.rel_append h (List.Forall₂.cons hkind List.Forall₂.nil)

/-- A DataPoint is new to a batch and its mirror exactly when its pair is. -/
theorem Resolutions.resolveOne {entries entries' : MirrorEntries}
    (hentries : entries.Corresponds pairing.Keys (pairing.Holding MirrorEntry.dataPoint) entries')
    {resolution resolution' : Resolution} (h : pairing.Resolutions resolution resolution')
    {d d' : BaseDataPoint} (hd : pairing.DataPoints d d') :
  pairing.Resolutions (SessionStateMirror.resolveOne entries resolution d)
    (SessionStateMirror.resolveOne entries' resolution' d')
  := by
  have hone := pairing.biUnique_keys
  have hadded := h.added.get? hone hd.keys
  have hupdated := h.updated.get? hone hd.keys
  have hknown := hentries.get? hone hd.keys
  simp only [SessionStateMirror.resolveOne]
  generalize resolution.added.get? (identityKey d) = added at hadded ⊢
  generalize resolution'.added.get? (identityKey d') = added' at hadded ⊢
  cases hadded with
  | some hmerged =>
      have hmerged := hmerged.reobserved d.lastRetrieved
      rw [hd.lastRetrieved] at hmerged ⊢
      dsimp only
      constructor
      · apply h.outcomes.append
        rfl
      · apply h.added.set hone hd.keys hmerged
      · apply h.updated
  | none =>
      generalize resolution.updated.get? (identityKey d) = updated at hupdated ⊢
      generalize resolution'.updated.get? (identityKey d') = updated' at hupdated ⊢
      cases hupdated with
      | some hmerged =>
          have hmerged := hmerged.reobserved d.lastRetrieved
          rw [hd.lastRetrieved] at hmerged ⊢
          dsimp only
          constructor
          · apply h.outcomes.append
            rfl
          · apply h.added
          · apply h.updated.set hone hd.keys hmerged
      | none =>
          generalize entries.get? (identityKey d) = known at hknown ⊢
          generalize entries'.get? (identityKey d') = known' at hknown ⊢
          cases hknown with
          | none =>
              dsimp only
              constructor
              · apply h.outcomes.append
                rfl
              · apply h.added.set hone hd.keys hd
              · apply h.updated
          | some hexisting =>
              have hmerged := hexisting.reobserved d.lastRetrieved
              dsimp only
              rw [hexisting.lastRetrieved, hd.lastRetrieved] at *
              constructor
              · apply h.outcomes.append
                rfl
              · apply h.added
              · dsimp only
                split
                · apply h.updated.set hone hd.keys hmerged
                · apply h.updated

theorem resolutions_resolve {entries entries' : MirrorEntries}
    (hentries : entries.Corresponds pairing.Keys (pairing.Holding MirrorEntry.dataPoint) entries')
    {batch batch' : List BaseDataPoint} (h : List.Forall₂ pairing.DataPoints batch batch') :
  pairing.Resolutions (SessionStateMirror.resolve entries batch)
    (SessionStateMirror.resolve entries' batch')
  := by
  rw [SessionStateMirror.resolve, SessionStateMirror.resolve]
  apply List.rel_foldl (P := pairing.Resolutions) (R := pairing.DataPoints) _ _ h
  · intro _ _ hresolution _ _ hd
    apply hresolution.resolveOne hentries hd
  · constructor
    · apply List.Forall₂.nil
    · apply Dict.corresponds_empty
    · apply Dict.corresponds_empty

/-- Mirrors are rehydrated from two stores. -/
theorem Stores.rehydrate {store store' : SessionState} (h : pairing.Stores store store')
    (mirror mirror' : SessionStateMirror) :
  pairing.Mirrors (mirror.rehydrate store) (mirror'.rehydrate store')
  := by
  constructor
  · apply Dict.corresponds_empty.update pairing.biUnique_keys
    rw [SessionState.snapshot, SessionState.snapshot, List.map_map, List.map_map]
    apply List.rel_map _ h.entries.values
    intro entry entry' hentry
    use hentry.keys
    apply hentry
  · rfl

/-- A batch that was resolved is applied to the mirror. -/
theorem Mirrors.apply {mirror mirror' : SessionStateMirror} (h : pairing.Mirrors mirror mirror')
    {resolution resolution' : Resolution}
    (hresolution : pairing.Resolutions resolution resolution') (revision : Revision) :
  pairing.Mirrors (mirror.apply resolution revision) (mirror'.apply resolution' revision)
  := by
  have hone := pairing.biUnique_keys
  constructor
  · apply hresolution.updated.foldl
      (P := Dict.Corresponds pairing.Keys (pairing.Holding MirrorEntry.dataPoint))
    · intro entries entries' item item' hentries hkey hd
      have hknown := hentries.get? hone hkey
      rw [SessionStateMirror.applyUpdated, SessionStateMirror.applyUpdated]
      generalize entries.get? item.1 = known at hknown ⊢
      generalize entries'.get? item'.1 = known' at hknown ⊢
      cases hknown with
      | none => apply hentries
      | some _ =>
          apply hentries.set hone hkey
          apply hd
    · apply hresolution.added.foldl
        (P := Dict.Corresponds pairing.Keys (pairing.Holding MirrorEntry.dataPoint))
      · intro entries entries' item item' hentries hkey hd
        apply hentries.set hone hkey
        apply hd
      · apply h.entries
  · apply h.hydrated

/-- A batch that was resolved is applied to the store. -/
theorem Stores.applyResolved {store store' : SessionState} (h : pairing.Stores store store')
    {added added' updated updated' : List BaseDataPoint}
    (hadded : List.Forall₂ pairing.DataPoints added added')
    (hupdated : List.Forall₂ pairing.DataPoints updated updated') (epoch : Epoch) :
  Outcomes Eq
    (fun applied applied' => applied.1 = applied'.1 ∧ pairing.Stores applied.2 applied'.2)
    (store.applyResolved added updated epoch) (store'.applyResolved added' updated' epoch)
  := by
  have hone := pairing.biUnique_keys
  have hempty : added.isEmpty = added'.isEmpty := by
    cases hadded with
    | nil => rfl
    | cons _ _ => rfl
  have hempty' : updated.isEmpty = updated'.isEmpty := by
    cases hupdated with
    | nil => rfl
    | cons _ _ => rfl
  rcases Nat.lt_or_ge epoch store.maxEpoch with hlt | hle
  · rw [SessionState.applyResolved_of_lt hlt, SessionState.applyResolved_of_lt (h.maxEpoch ▸ hlt),
      h.maxEpoch]
    apply Outcomes.error rfl
  · have hle' : store'.maxEpoch ≤ epoch := h.maxEpoch ▸ hle
    cases hbatch : added.isEmpty && updated.isEmpty with
    | true =>
        rw [Bool.and_eq_true, List.isEmpty_iff, List.isEmpty_iff] at hbatch
        obtain ⟨rfl, rfl⟩ := hbatch
        cases hadded
        cases hupdated
        rw [SessionState.applyResolved_nil hle, SessionState.applyResolved_nil hle', h.revision]
        apply Outcomes.ok
        use rfl
        constructor
        · apply h.entries
        · rfl
        · rfl
    | false =>
        have hbatch' : (added'.isEmpty && updated'.isEmpty) = false := by
          rw [← hempty, ← hempty', hbatch]
        rw [SessionState.applyResolved_of_le hle hbatch,
          SessionState.applyResolved_of_le hle' hbatch', h.revision]
        apply Outcomes.ok
        use rfl
        constructor
        · apply List.rel_foldl
            (P := Dict.Corresponds pairing.Keys (pairing.Holding Entry.dataPoint))
            (R := pairing.DataPoints) _ _ hupdated
          · intro entries entries' hentries d d' hd
            apply hentries.set hone hd.keys
            apply hd
          · apply List.rel_foldl
              (P := Dict.Corresponds pairing.Keys (pairing.Holding Entry.dataPoint))
              (R := pairing.DataPoints) _ h.entries hadded
            intro entries entries' hentries d d' hd
            apply hentries.set hone hd.keys
            apply hd
        · rfl
        · rfl

/-- What two writes return. -/
structure Written (result result' : MirrorWriteResult) : Prop where
  revision : result.revision = result'.revision
  outcomes : SameKinds result.outcomes result'.outcomes

/-- A batch is written in both executions, with the same outcomes, or raises the same error in
both. -/
theorem Mirrors.write {mirror mirror' : SessionStateMirror} {store store' : SessionState}
    (h : pairing.Mirrors mirror mirror') (hstores : pairing.Stores store store')
    {batch batch' : List BaseDataPoint} (hbatch : List.Forall₂ pairing.DataPoints batch batch')
    (epoch : Epoch) :
  Outcomes Eq Written (mirror.write store batch epoch).1 (mirror'.write store' batch' epoch).1
    ∧ pairing.Mirrors (mirror.write store batch epoch).2.1 (mirror'.write store' batch' epoch).2.1
    ∧ pairing.Stores (mirror.write store batch epoch).2.2 (mirror'.write store' batch' epoch).2.2
  := by
  have hrequire : mirror.requireHydrated = mirror'.requireHydrated := by
    rw [SessionStateMirror.requireHydrated, SessionStateMirror.requireHydrated, h.hydrated]
  have hresolution := resolutions_resolve h.entries hbatch
  have happlied :=
    hstores.applyResolved hresolution.added.values hresolution.updated.values epoch
  rw [SessionStateMirror.write, SessionStateMirror.write, hrequire]
  cases mirror'.requireHydrated with
  | error error =>
      use Outcomes.error rfl, h
  | ok _ =>
      dsimp only
      generalize store.applyResolved _ _ epoch = applied at happlied ⊢
      generalize store'.applyResolved _ _ epoch = applied' at happlied ⊢
      cases happlied with
      | error herror =>
          use Outcomes.error herror, h
      | @ok applied applied' happlied =>
          obtain ⟨revision, store⟩ := applied
          obtain ⟨revision', store'⟩ := applied'
          obtain ⟨hrevision, hstores⟩ := happlied
          cases hrevision
          constructor
          · apply Outcomes.ok
            constructor
            · rfl
            · apply hresolution.outcomes
          · use h.apply hresolution revision

/-! ### Bookkeeping -/

variable (pairing) in
/-- Two merges of such DataPoints by one operator, or by none. -/
structure Presented (signal signal' : Emitted) : Prop where
  operatorId : signal.operatorId = signal'.operatorId
  dataPoint : pairing.DataPoints signal.dataPoint signal'.dataPoint

theorem presented_dataPoints {emitted emitted' : List Emitted}
    (h : List.Forall₂ pairing.Presented emitted emitted') :
  List.Forall₂ pairing.DataPoints (emitted.map Emitted.dataPoint) (emitted'.map Emitted.dataPoint)
  := List.rel_map (fun _ _ hsignal => hsignal.dataPoint) h

theorem presented_of_dataPoints {batch batch' : List BaseDataPoint}
    (h : List.Forall₂ pairing.DataPoints batch batch') (operatorId : Option OperatorId) :
  List.Forall₂ pairing.Presented (batch.map (fun d => ⟨operatorId, d⟩))
    (batch'.map (fun d => ⟨operatorId, d⟩))
  := List.rel_map (fun _ _ hd => ⟨rfl, hd⟩) h

/-- Two books with the same counts and rows, and with archive entries of the same epochs. -/
structure Booked (books books' : Books) : Prop where
  coalesced : books.coalescedAudits = books'.coalescedAudits
  reobserved : books.reobservedAudits = books'.reobservedAudits
  rows : books.auditEntries = books'.auditEntries
  archived : List.Forall₂ (fun entry entry' => entry.epoch = entry'.epoch)
    books.archiveEntries books'.archiveEntries

/-- Nothing of a PII value is written: no override is given, and no cipher seals it. -/
structure Redacts (services : AuditServices) : Prop where
  noOverride : ∀ dataPoint, services.auditSummary dataPoint = none
  noCipher : ∀ encrypt, services.cipher ≠ some (.sealing encrypt)

variable {services : AuditServices} {sealing : Sealing} {call : MergeCall}

/-- What is written of a DataPoint is written of its pair. -/
theorem Redacts.info_eq (hredacts : Redacts services) {d d' : BaseDataPoint}
    (h : pairing.DataPoints d d') :
  services.info leaves d = services.info leaves d'
  := by
  have hsummary : services.summary leaves d = services.summary leaves d' := by
    rw [AuditServices.summary, AuditServices.summary, hredacts.noOverride, hredacts.noOverride]
    dsimp only
    rw [Leaves.isPii, Leaves.isPii, ← h.type]
    cases hpii : (leaves.config d.type).pii with
    | true =>
        cases hcipher : services.cipher with
        | none => rfl
        | some cipher =>
            cases cipher with
            | null => rfl
            | sealing encrypt => exact absurd hcipher (hredacts.noCipher encrypt)
    | false => rw [pairing.plain hpii h.value]
  rw [AuditServices.info, AuditServices.info, hsummary, h.type]

theorem Booked.bookAudit (hredacts : Redacts services) {books books' : Books}
    (h : Booked books books') {signal signal' : Emitted}
    (hsignal : pairing.Presented signal signal')
    {outcome outcome' : MergeResult} (hkind : outcome.kind = outcome'.kind) :
  Booked (books.bookAudit (services.merging leaves sealing) call signal outcome)
    (books'.bookAudit (services.merging leaves sealing) call signal' outcome')
  := by
  have haudits : (services.merging leaves sealing).leaves.auditsEveryEmission signal.dataPoint
      = (services.merging leaves sealing).leaves.auditsEveryEmission signal'.dataPoint := by
    rw [Leaves.auditsEveryEmission, Leaves.auditsEveryEmission, hsignal.dataPoint.type]
  have hrow : dataPointAuditEntry (services.merging leaves sealing) call signal
      = dataPointAuditEntry (services.merging leaves sealing) call signal' := by
    rw [dataPointAuditEntry, dataPointAuditEntry, AuditServices.merging, hsignal.operatorId]
    dsimp only
    rw [hredacts.info_eq hsignal.dataPoint]
  rw [Books.bookAudit, Books.bookAudit, haudits, hkind]
  split
  · constructor
    · rw [h.coalesced, hsignal.dataPoint.type]
    · apply h.reobserved
    · apply h.rows
    · apply h.archived
  · split
    · constructor
      · apply h.coalesced
      · rw [h.reobserved, hsignal.dataPoint.type]
      · apply h.rows
      · apply h.archived
    · constructor
      · apply h.coalesced
      · apply h.reobserved
      · rw [h.rows, hrow]
      · apply h.archived

theorem Booked.book (hredacts : Redacts services) {books books' : Books}
    (h : Booked books books') {signal signal' : Emitted}
    (hsignal : pairing.Presented signal signal')
    {outcome outcome' : MergeResult} (hkind : outcome.kind = outcome'.kind) :
  Booked (books.book (services.merging leaves sealing) call (signal, outcome))
    (books'.book (services.merging leaves sealing) call (signal', outcome'))
  := by
  have hbooked : Booked
      (books.bookAudit (services.merging leaves sealing) call signal outcome)
      (books'.bookAudit (services.merging leaves sealing) call signal' outcome') :=
    h.bookAudit hredacts hsignal hkind
  have hkeeps : (services.merging leaves sealing).keeps signal.dataPoint
      = (services.merging leaves sealing).keeps signal'.dataPoint := by
    rw [MergeServices.keeps, MergeServices.keeps, Leaves.isEphemeral, Leaves.isEphemeral,
      hsignal.dataPoint.type]
  rw [Books.book, Books.book, hkeeps]
  split
  · constructor
    · apply hbooked.coalesced
    · apply hbooked.reobserved
    · apply hbooked.rows
    · apply List.rel_append hbooked.archived
      apply List.Forall₂.cons _ List.Forall₂.nil
      rfl
  · apply hbooked

theorem Booked.batch (hredacts : Redacts services) {books books' : Books}
    (h : Booked books books') {emitted emitted' : List Emitted}
    (hemitted : List.Forall₂ pairing.Presented emitted emitted')
    {outcomes outcomes' : List MergeResult} (houtcomes : SameKinds outcomes outcomes') :
  Booked ((emitted.zip outcomes).foldl (Books.book (services.merging leaves sealing) call) books)
    ((emitted'.zip outcomes').foldl (Books.book (services.merging leaves sealing) call) books')
  := by
  induction hemitted generalizing books books' outcomes outcomes' with
  | nil => apply h
  | cons hsignal _ ih =>
      cases houtcomes with
      | nil => apply h
      | cons hkind houtcomes =>
          rw [List.zip_cons_cons, List.zip_cons_cons, List.foldl_cons, List.foldl_cons]
          apply ih (h.book hredacts hsignal hkind) houtcomes

/-- Batches of the same epochs are archived or rejected alike. -/
theorem archiveMany_alike {sealer : Sealer} {archive archive' : ArchiveState}
    (h : archive.maxEpoch = archive'.maxEpoch) {entries entries' : List ArchivedDataPoint}
    (hentries : List.Forall₂ (fun entry entry' => entry.epoch = entry'.epoch) entries entries') :
  (archive.archiveMany sealer entries).1 = (archive'.archiveMany sealer entries').1
    ∧ (archive.archiveMany sealer entries).2.maxEpoch
      = (archive'.archiveMany sealer entries').2.maxEpoch
  := by
  induction hentries generalizing archive archive' with
  | nil => use rfl, h
  | @cons entry entry' _ _ hepoch _ ih =>
      rw [ArchiveState.archiveMany, ArchiveState.archiveMany, ArchiveState.archive,
        ArchiveState.archive, hepoch, h]
      by_cases hlt : entry'.epoch < archive'.maxEpoch
      · rw [if_pos hlt, if_pos hlt]
        use rfl, h
      · rw [if_neg hlt, if_neg hlt]
        apply ih
        rfl

theorem archiveEntries_alike {archive archive' : ArchiveState}
    (h : archive.maxEpoch = archive'.maxEpoch) {entries entries' : List ArchivedDataPoint}
    (hentries : List.Forall₂ (fun entry entry' => entry.epoch = entry'.epoch) entries entries') :
  (archiveEntries (services.merging leaves sealing) call archive entries).1
      = (archiveEntries (services.merging leaves sealing) call archive' entries').1
    ∧ (archiveEntries (services.merging leaves sealing) call archive entries).2.maxEpoch
      = (archiveEntries (services.merging leaves sealing) call archive' entries').2.maxEpoch
  := by
  cases hfault : call.faults.archive with
  | none =>
      rw [archiveEntries_eq hfault, archiveEntries_eq hfault]
      apply archiveMany_alike h hentries
  | some fault =>
      cases hentries with
      | nil => use rfl, h
      | cons _ _ =>
          rw [archiveEntries, archiveEntries]
          simp only [hfault, and_self]

/-! ### Merges -/

variable (pairing) in
/-- What merges read and change, in two executions. -/
structure Merging (state state' : MergeState) : Prop where
  mirror : pairing.Mirrors state.mirror state'.mirror
  store : pairing.Stores state.store state'.store
  audit : state.audit = state'.audit
  archive : state.archive.maxEpoch = state'.archive.maxEpoch
  coalesced : state.coalescedAudits = state'.coalescedAudits
  reobserved : state.reobservedAudits = state'.reobservedAudits

namespace Merging

variable {state state' : MergeState} {batch batch' : List BaseDataPoint}

theorem write (h : pairing.Merging state state')
    (hbatch : List.Forall₂ pairing.DataPoints batch batch') :
  Outcomes Eq Written (state.write call batch).1 (state'.write call batch').1
    ∧ pairing.Merging (state.write call batch).2 (state'.write call batch').2
  := by
  rw [MergeState.write, MergeState.write]
  cases call.faults.apply with
  | some error => apply And.intro (Outcomes.error rfl) h
  | none =>
      obtain ⟨houtcome, hmirrors, hstores⟩ := h.mirror.write h.store hbatch call.epoch
      apply And.intro houtcome
      constructor
      · apply hmirrors
      · apply hstores
      · apply h.audit
      · apply h.archive
      · apply h.coalesced
      · apply h.reobserved

theorem mergeBookkeeping (hredacts : Redacts services) (h : pairing.Merging state state')
    {emitted emitted' : List Emitted} (hemitted : List.Forall₂ pairing.Presented emitted emitted')
    {outcomes outcomes' : List MergeResult} (houtcomes : SameKinds outcomes outcomes') :
  (state.mergeBookkeeping (services.merging leaves sealing) call emitted outcomes).1
      = (state'.mergeBookkeeping (services.merging leaves sealing) call emitted' outcomes').1
    ∧ pairing.Merging
      (state.mergeBookkeeping (services.merging leaves sealing) call emitted outcomes).2
      (state'.mergeBookkeeping (services.merging leaves sealing) call emitted' outcomes').2
  := by
  have hbooked : Booked
      ((emitted.zip outcomes).foldl (Books.book (services.merging leaves sealing) call)
        ⟨state.coalescedAudits, state.reobservedAudits, [], []⟩)
      ((emitted'.zip outcomes').foldl (Books.book (services.merging leaves sealing) call)
        ⟨state'.coalescedAudits, state'.reobservedAudits, [], []⟩) := by
    apply Booked.batch hredacts _ hemitted houtcomes
    constructor
    · apply h.coalesced
    · apply h.reobserved
    · rfl
    · apply List.Forall₂.nil
  rw [MergeState.mergeBookkeeping, MergeState.mergeBookkeeping]
  dsimp only
  generalize (emitted.zip outcomes).foldl _ _ = books at hbooked ⊢
  generalize (emitted'.zip outcomes').foldl _ _ = books' at hbooked ⊢
  rw [h.audit, hbooked.rows, hbooked.coalesced, hbooked.reobserved]
  cases appendAuditEntries call state'.audit books'.auditEntries with
  | mk appended audit =>
      cases appended with
      | error error =>
          use rfl
          constructor
          · apply h.mirror
          · apply h.store
          · rfl
          · apply h.archive
          · rfl
          · rfl
      | ok _ =>
          obtain ⟨houtcome, hmaxEpoch⟩ := archiveEntries_alike h.archive hbooked.archived
          use houtcome
          constructor
          · apply h.mirror
          · apply h.store
          · rfl
          · apply hmaxEpoch
          · rfl
          · rfl

theorem mergeEmissions (hredacts : Redacts services) (h : pairing.Merging state state')
    {emitted emitted' : List Emitted}
    (hemitted : List.Forall₂ pairing.Presented emitted emitted') :
  (state.mergeEmissions (services.merging leaves sealing) call emitted).1
      = (state'.mergeEmissions (services.merging leaves sealing) call emitted').1
    ∧ pairing.Merging (state.mergeEmissions (services.merging leaves sealing) call emitted).2
      (state'.mergeEmissions (services.merging leaves sealing) call emitted').2
  := by
  have hempty : emitted.isEmpty = emitted'.isEmpty := by
    cases hemitted with
    | nil => rfl
    | cons _ _ => rfl
  obtain ⟨hresult, hwritten⟩ := h.write (presented_dataPoints hemitted)
  rw [MergeState.mergeEmissions, MergeState.mergeEmissions, hempty]
  split
  · apply And.intro rfl h
  · generalize state.write call _ = written at hresult hwritten ⊢
    generalize state'.write call _ = written' at hresult hwritten ⊢
    obtain ⟨result, state⟩ := written
    obtain ⟨result', state'⟩ := written'
    dsimp only at hresult hwritten
    cases hresult with
    | error herror =>
        cases herror
        apply And.intro rfl hwritten
    | ok hresult => apply hwritten.mergeBookkeeping hredacts hemitted hresult.outcomes

theorem merge (hredacts : Redacts services) (h : pairing.Merging state state')
    (hbatch : List.Forall₂ pairing.DataPoints batch batch') (operatorId : Option OperatorId) :
  (state.merge (services.merging leaves sealing) call batch operatorId).1
      = (state'.merge (services.merging leaves sealing) call batch' operatorId).1
    ∧ pairing.Merging (state.merge (services.merging leaves sealing) call batch operatorId).2
      (state'.merge (services.merging leaves sealing) call batch' operatorId).2
  := h.mergeEmissions hredacts (presented_of_dataPoints hbatch operatorId)

theorem applyInboxDataPoints (hredacts : Redacts services) (h : pairing.Merging state state')
    (hbatch : List.Forall₂ pairing.DataPoints batch batch') :
  (state.applyInboxDataPoints (services.merging leaves sealing) call batch).1
      = (state'.applyInboxDataPoints (services.merging leaves sealing) call batch').1
    ∧ pairing.Merging (state.applyInboxDataPoints (services.merging leaves sealing) call batch).2
      (state'.applyInboxDataPoints (services.merging leaves sealing) call batch').2
  := by
  have hemitted := presented_of_dataPoints hbatch none
  obtain ⟨hresult, hwritten⟩ := h.write (presented_dataPoints hemitted)
  rw [MergeState.applyInboxDataPoints, MergeState.applyInboxDataPoints]
  generalize state.write call _ = written at hresult hwritten ⊢
  generalize state'.write call _ = written' at hresult hwritten ⊢
  obtain ⟨result, state⟩ := written
  obtain ⟨result', state'⟩ := written'
  dsimp only at hresult hwritten
  cases hresult with
  | error herror =>
      cases herror
      apply And.intro rfl hwritten
  | ok hresult =>
      obtain ⟨houtcome, hbooked⟩ :=
        hwritten.mergeBookkeeping hredacts hemitted hresult.outcomes
      dsimp only
      generalize state.mergeBookkeeping _ _ _ _ = bookkeeping at houtcome hbooked ⊢
      generalize state'.mergeBookkeeping _ _ _ _ = bookkeeping' at houtcome hbooked ⊢
      obtain ⟨outcome, booked⟩ := bookkeeping
      obtain ⟨outcome', booked'⟩ := bookkeeping'
      cases houtcome
      cases outcome with
      | ok _ => apply And.intro rfl hbooked
      | error error =>
          dsimp only
          split
          · apply And.intro rfl hbooked
          · apply And.intro rfl hbooked

theorem appendCoalescedAudits (h : pairing.Merging state state') :
  (services.appendCoalescedAudits call state).1 = (services.appendCoalescedAudits call state').1
    ∧ pairing.Merging (services.appendCoalescedAudits call state).2
      (services.appendCoalescedAudits call state').2
  := by
  rw [AuditServices.appendCoalescedAudits, AuditServices.appendCoalescedAudits, h.audit,
    h.coalesced, h.reobserved]
  dsimp only
  split
  · apply And.intro rfl h
  · use rfl
    constructor
    · apply h.mirror
    · apply h.store
    · rfl
    · apply h.archive
    · rfl
    · rfl

end Merging

/-! ### Emissions -/

variable (pairing) in
/-- Two emissions of one operator that were finalized at one time. -/
structure Queued (queued queued' : QueuedEmission) : Prop where
  operatorId : queued.operatorId = queued'.operatorId
  type : queued.finalized.type = queued'.finalized.type
  value : pairing.related queued.finalized.type queued.finalized.value queued'.finalized.value
  retrievedBy : queued.finalized.retrievedBy = queued'.finalized.retrievedBy
  firstRetrieved : queued.finalized.firstRetrieved = queued'.finalized.firstRetrieved
  lastRetrieved : queued.finalized.lastRetrieved = queued'.finalized.lastRetrieved

/-- Two emissions are normalized, each to what it says, or neither is. -/
theorem Queued.normalize {queued queued' : QueuedEmission} (h : pairing.Queued queued queued') :
  Outcomes (fun _ _ => True) pairing.Presented queued.normalize queued'.normalize
  := by
  have hsame := pairing.pattern h.value h.value
  rw [Value.same_self_iff, Value.same_self_iff] at hsame
  rw [QueuedEmission.normalize, QueuedEmission.normalize]
  cases hvalue : makeHashable queued.finalized.value with
  | error error =>
      cases hvalue' : makeHashable queued'.finalized.value with
      | error error' =>
          rw [FinalizedDataPoint.normalize_of_error hvalue,
            FinalizedDataPoint.normalize_of_error hvalue']
          apply Outcomes.error trivial
      | ok hashed' =>
          obtain ⟨hashed, h⟩ := hsame.mpr ⟨hashed', hvalue'⟩
          cases hvalue.symm.trans h
  | ok hashed =>
      obtain ⟨hashed', hvalue'⟩ := hsame.mp ⟨hashed, hvalue⟩
      rw [FinalizedDataPoint.normalize_of_ok hvalue, FinalizedDataPoint.normalize_of_ok hvalue']
      apply Outcomes.ok
      constructor
      · rw [h.operatorId]
      · constructor
        · apply h.type
        · apply h.value
        · apply h.retrievedBy
        · apply h.firstRetrieved
        · apply h.lastRetrieved

/-- The emissions of a batch can be merged in both executions or in none. -/
theorem outcomes_normalizeAll {batch batch' : List QueuedEmission}
    (h : List.Forall₂ pairing.Queued batch batch') :
  Outcomes (fun _ _ => True) (List.Forall₂ pairing.Presented) (normalizeAll batch)
    (normalizeAll batch')
  := by
  induction h with
  | nil => apply Outcomes.ok List.Forall₂.nil
  | @cons queued queued' batch batch' hqueued _ ih =>
      have hfirst := hqueued.normalize
      rw [normalizeAll, normalizeAll]
      generalize queued.normalize = first at hfirst ⊢
      generalize queued'.normalize = first' at hfirst ⊢
      generalize normalizeAll batch = rest at ih ⊢
      generalize normalizeAll batch' = rest' at ih ⊢
      cases hfirst with
      | error _ => apply Outcomes.error trivial
      | ok hsignal =>
          cases ih with
          | error _ => apply Outcomes.error trivial
          | ok hrest => apply Outcomes.ok (List.Forall₂.cons hsignal hrest)

end Pairing

end Orcastork
