import Orcastork.Adapters.Mongo.ArchiveFlush

/-!
# PII at rest

The collections of `MongoDataPointArchive` are shared by the sessions of every namespace. A
fleet of archives works on them: any session may archive a batch, whether or not the cipher of
its namespace can be resolved, and any session may be in the middle of a flush.

A row of PII that is found in a collection was sealed and keyed with the cipher of its session
(`SealedAtRest`). The values of PII leave no other trace: if the ciphers of a run are replaced,
and the PII of its batches, so that what is archived is encrypted and keyed to the same, then
the collections, the flushes under way and what the callers are told stay the same
(`pii_sealed_at_rest`).
-/

namespace Orcastork

/-- The sealing of every session, with the cipher of its namespace. -/
structure SessionSealings where
  sealing : SessionId → Sealing
  named : ∀ sessionId, (sealing sessionId).sessionId = sessionId

/-- The collections, how far the flush of every session is, and what the calls of
`archive_many` returned or raised. -/
structure ArchiveFleet where
  archive : MongoArchive
  points : SessionId → FlushPoint
  outcomes : List (SessionId × Except OrchestrationError Unit)

namespace ArchiveFleet

/-- Nothing archived yet. -/
def initial : ArchiveFleet := ⟨⟨[], .empty, .empty⟩, fun _ => .idle, []⟩

/-- What an action lets its caller know. -/
def outcome (sealing : Sealing) (archive : MongoArchive) : ArchiveAction →
    List (SessionId × Except OrchestrationError Unit)
  | .archive available entries =>
    [(sealing.sessionId, (archive.archiveMany sealing available entries).1)]
  | _ => []

/-- One action of one session. -/
def step (sealings : SessionSealings) (fleet : ArchiveFleet) (action : SessionId × ArchiveAction) :
    Option ArchiveFleet :=
  let sealing := sealings.sealing action.1
  (ArchiveProcess.step sealing ⟨fleet.archive, fleet.points action.1⟩ action.2).map
    (fun process =>
      { archive := process.archive
        points := Function.update fleet.points action.1 process.point
        outcomes := fleet.outcomes ++ outcome sealing fleet.archive action.2 })

end ArchiveFleet

variable {sealings : SessionSealings} {sealing : Sealing} {available : Bool}
variable {archive : MongoArchive} {entry entry' : ArchivedDataPoint}
variable {entries entries' : List ArchivedDataPoint}

/-! ### Sealed rows -/

/-- PII of a session is encrypted and keyed with the cipher of the session. -/
def SessionSealings.Seals (sealings : SessionSealings) (sessionId : SessionId)
    (entry : ArchivedDataPoint) : Prop :=
  entry.isPii = true → ∃ plaintext : Value,
    let sealing := sealings.sealing sessionId
    entry.value = .str (sealing.cipher.encrypt (sealing.dumps plaintext))
      ∧ entry.valueHash
        = sealing.cipher.mac (sessionId ++ "\x00" ++ sealing.canonicalValue plaintext)

/-- Every row of the collections that is PII is sealed. -/
structure SealedAtRest (sealings : SessionSealings) (archive : MongoArchive) : Prop where
  buffer : ∀ row ∈ archive.buffer, sealings.Seals row.sessionId row.entry
  committed : ∀ {id : String} {row : CommittedRow}, archive.committed.get? id = some row →
    sealings.Seals row.sessionId row.entry

/-- The collections are sealed, and so is what a flush has yet to write. -/
structure ArchiveFleet.Sealed (sealings : SessionSealings) (fleet : ArchiveFleet) : Prop where
  atRest : SealedAtRest sealings fleet.archive
  remaining : ∀ {sessionId : SessionId} {page remaining : List BufferRow},
    fleet.points sessionId = .flushing page remaining →
      ∀ row ∈ remaining, sealings.Seals sessionId row.entry

/-- What is buffered of an entry under the cipher of its session is sealed. -/
theorem seals_stored (sessionId : SessionId) (entry : ArchivedDataPoint) :
  sealings.Seals sessionId (MongoArchive.stored (sealings.sealing sessionId) entry)
  := by
  intro hpii
  have hplain : entry.isPii = true := by
    rw [MongoArchive.stored, Sealing.sealer, Sealing.sealEntry_eq] at hpii
    apply hpii
  use entry.value
  simp [MongoArchive.stored, Sealing.sealer, Sealing.sealEntry_eq, Sealing.valueHash, hplain,
    sealings.named]

/-- An upsert keeps the rows sealed, since it moves only the last retrieval and the epoch of a
row that is there. -/
theorem SealedAtRest.upsertRow (h : SealedAtRest sealings archive) {sessionId : SessionId}
    (hentry : sealings.Seals sessionId entry) {id : String} {row : CommittedRow}
    (hget : (MongoArchive.upsertRow sessionId archive.committed entry).get? id = some row) :
  sealings.Seals row.sessionId row.entry
  := by
  rw [MongoArchive.upsertRow] at hget
  dsimp only at hget
  split at hget
  · rw [Dict.get?_set] at hget
    split at hget
    · obtain rfl := Option.some.inj hget
      apply hentry
    · apply h.committed hget
  · rename_i existing hexisting
    rw [Dict.get?_set] at hget
    split at hget
    · obtain rfl := Option.some.inj hget
      apply h.committed hexisting
    · apply h.committed hget

/-- A batch is buffered sealed, or not at all. -/
theorem SealedAtRest.archiveMany (h : SealedAtRest sealings archive) (sessionId : SessionId)
    (available : Bool) (entries : List ArchivedDataPoint) :
  SealedAtRest sealings
    (archive.archiveMany (sealings.sealing sessionId) available entries).2
  := by
  obtain ⟨next, heq, hbuffers⟩ | ⟨error, heq⟩ :=
    archiveMany_cases (sealings.sealing sessionId) available archive entries
  · rw [heq]
    obtain ⟨rows, hbuffer, hentries, -, hrows⟩ := hbuffers.rows
    constructor
    · intro row hrow
      rw [hbuffer, List.mem_append] at hrow
      rcases hrow with hrow | hrow
      · apply h.buffer row hrow
      · have hmem : row.entry ∈ entries.map
            (MongoArchive.stored (sealings.sealing sessionId)) := by
          rw [← hentries]
          exact List.mem_map_of_mem hrow
        obtain ⟨entry, -, hentry⟩ := List.mem_map.mp hmem
        rw [(hrows row hrow).1, sealings.named, ← hentry]
        apply seals_stored
    · intro id row hget
      rw [hbuffers.committed] at hget
      apply h.committed hget
  · rw [heq]
    apply h

namespace ArchiveFleet

variable {fleet next : ArchiveFleet}

theorem Sealed.step {action : SessionId × ArchiveAction} (h : Sealed sealings fleet)
    (hstep : fleet.step sealings action = some next) :
  Sealed sealings next
  := by
  obtain ⟨sessionId, action⟩ := action
  rw [ArchiveFleet.step, Option.map_eq_some_iff] at hstep
  obtain ⟨process, hprocess, rfl⟩ := hstep
  -- a step moves the flush of its own session only
  have hpoints : (∀ {page remaining : List BufferRow}, process.point = .flushing page remaining →
      ∀ row ∈ remaining, sealings.Seals sessionId row.entry) →
      ∀ {other : SessionId} {page remaining : List BufferRow},
        Function.update fleet.points sessionId process.point other = .flushing page remaining →
          ∀ row ∈ remaining, sealings.Seals other row.entry := by
    intro hown other page remaining hother
    by_cases hsame : other = sessionId
    · subst hsame
      rw [Function.update_self] at hother
      apply hown hother
    · rw [Function.update_of_ne hsame] at hother
      apply h.remaining hother
  dsimp only at hprocess
  cases action with
  | archive available entries =>
      obtain rfl := Option.some.inj hprocess
      constructor
      · apply h.atRest.archiveMany
      · apply hpoints
        intro page remaining hpoint
        apply h.remaining hpoint
  | start =>
      rw [ArchiveProcess.step] at hprocess
      split at hprocess
      · obtain rfl := Option.some.inj hprocess
        constructor
        · apply h.atRest
        · apply hpoints
          intro page remaining hpoint
          cases hpoint
      · cases hprocess
  | fetch =>
      rw [ArchiveProcess.step] at hprocess
      split at hprocess
      · dsimp only at hprocess
        split at hprocess
        · obtain rfl := Option.some.inj hprocess
          constructor
          · apply h.atRest
          · apply hpoints
            intro page remaining hpoint
            cases hpoint
        · obtain rfl := Option.some.inj hprocess
          constructor
          · apply h.atRest
          · apply hpoints
            intro page remaining hpoint row hrow
            cases hpoint
            have hmem := ((Paging.mem_past _).mp ((Paging.mem_inOrder _).mp (List.mem_of_mem_take hrow))).1
            rw [MongoArchive.rowsOf, List.mem_filter, decide_eq_true_eq, sealings.named] at hmem
            rw [← hmem.2]
            apply h.atRest.buffer row hmem.1
      · cases hprocess
  | write =>
      rw [ArchiveProcess.step] at hprocess
      split at hprocess
      · rename_i page row rest hpoint
        obtain rfl := Option.some.inj hprocess
        have hsealed := h.remaining hpoint
        constructor
        · constructor
          · apply h.atRest.buffer
          · intro id committed hget
            rw [sealings.named] at hget
            apply h.atRest.upsertRow (hsealed row List.mem_cons_self) hget
        · apply hpoints
          intro page' remaining hflushing other hmem
          cases hflushing
          apply hsealed other (List.mem_cons_of_mem row hmem)
      · cases hprocess
  | delete row =>
      rw [ArchiveProcess.step] at hprocess
      split at hprocess
      · rename_i page hpoint
        split at hprocess
        · obtain rfl := Option.some.inj hprocess
          constructor
          · constructor
            · intro other hmem
              apply h.atRest.buffer other (List.mem_of_mem_filter hmem)
            · intro id committed hget
              apply h.atRest.committed hget
          · apply hpoints
            intro page' remaining hflushing
            apply h.remaining hflushing
        · cases hprocess
      · cases hprocess
  | deleted =>
      rw [ArchiveProcess.step] at hprocess
      split at hprocess
      · split at hprocess
        · obtain ⟨last, -, rfl⟩ := Option.map_eq_some_iff.mp hprocess
          constructor
          · apply h.atRest
          · apply hpoints
            intro page' remaining hflushing
            cases hflushing
        · cases hprocess
      · cases hprocess
  | die =>
      obtain rfl := Option.some.inj hprocess
      constructor
      · apply h.atRest
      · apply hpoints
        intro page remaining hpoint
        cases hpoint

theorem sealed_initial :
  Sealed sealings initial
  := by
  constructor
  · constructor
    · intro row hrow
      cases hrow
    · intro id row hget
      cases hget
  · intro sessionId page remaining hpoint
    cases hpoint

end ArchiveFleet

/-! ### What PII leaves behind -/

/-- Two sealings differ in their cipher only. -/
def Sealing.SameBut (sealing sealing' : Sealing) : Prop :=
  sealing' = { sealing with cipher := sealing'.cipher }

/-- Two entries differ in nothing but their value, and in that only if it is PII; if it is
archived, it is encrypted and keyed to the same. -/
structure SealsAlike (sealing sealing' : Sealing) (available : Bool)
    (entry entry' : ArchivedDataPoint) : Prop where
  metadata : entry' = { entry with value := entry'.value, valueHash := entry'.valueHash }
  plain : entry.isPii = false → entry'.value = entry.value
  pii : available = true → entry.isPii = true →
    sealing'.cipher.encrypt (sealing'.dumps entry'.value)
        = sealing.cipher.encrypt (sealing.dumps entry.value)
      ∧ sealing'.cipher.mac
          (sealing'.sessionId ++ "\x00" ++ sealing'.canonicalValue entry'.value)
        = sealing.cipher.mac (sealing.sessionId ++ "\x00" ++ sealing.canonicalValue entry.value)

/-- Two actions of a session are the same, but for the PII of a batch. -/
inductive ActionsAlike (sealings sealings' : SessionSealings) :
    SessionId × ArchiveAction → SessionId × ArchiveAction → Prop where
  | archive (sessionId : SessionId) (available : Bool) {entries entries' : List ArchivedDataPoint}
      (h : List.Forall₂
        (SealsAlike (sealings.sealing sessionId) (sealings'.sealing sessionId) available)
        entries entries') :
      ActionsAlike sealings sealings' (sessionId, .archive available entries)
        (sessionId, .archive available entries')
  | flush (sessionId : SessionId) {action : ArchiveAction} (h : action.isFlush = true) :
      ActionsAlike sealings sealings' (sessionId, action) (sessionId, action)

variable {sealing' : Sealing} {sealings' : SessionSealings}

namespace SealsAlike

theorem isPii_eq (h : SealsAlike sealing sealing' available entry entry') :
  entry'.isPii = entry.isPii
  := by
  rw [h.metadata]

theorem type_eq (h : SealsAlike sealing sealing' available entry entry') :
  entry'.type = entry.type
  := by
  rw [h.metadata]

theorem epoch_eq (h : SealsAlike sealing sealing' available entry entry') :
  entry'.epoch = entry.epoch
  := by
  rw [h.metadata]

/-- What is not refused is buffered the same. -/
theorem stored_eq (hsame : sealing.SameBut sealing')
    (h : SealsAlike sealing sealing' available entry entry')
    (haccepted : (!available && entry.isPii) = false) :
  MongoArchive.stored (sealing'.resolved available) entry'
    = MongoArchive.stored (sealing.resolved available) entry
  := by
  rw [stored_resolved haccepted, stored_resolved (by
    rw [h.isPii_eq]
    apply haccepted)]
  obtain ⟨hmetadata, hplain, hpii⟩ := h
  rw [hmetadata]
  cases hentry : entry.isPii with
  | false =>
      have hhash : ∀ value, sealing'.sha256 (sealing'.canonicalValue value)
          = sealing.sha256 (sealing.canonicalValue value) := by
        intro value
        rw [hsame, Sealing.canonicalValue, Sealing.canonicalValue]
      simp [MongoArchive.stored, Sealing.sealer, Sealing.sealEntry_eq, Sealing.valueHash, hentry,
        hplain hentry, hhash]
  | true =>
      have hcipher : available = true := by
        rw [hentry, Bool.and_true] at haccepted
        simpa using haccepted
      obtain ⟨hencrypt, hmac⟩ := hpii hcipher hentry
      simp [MongoArchive.stored, Sealing.sealer, Sealing.sealEntry_eq, Sealing.valueHash, hentry,
        hencrypt, hmac]

/-- The same entry of two batches is refused for its PII. -/
theorem find?_refused (h : List.Forall₂ (SealsAlike sealing sealing' available) entries entries') :
  Option.Rel (fun entry entry' => entry'.type = entry.type)
    (entries.find? (fun entry => !available && entry.isPii))
    (entries'.find? (fun entry => !available && entry.isPii))
  := by
  induction h with
  | nil => apply Option.Rel.none
  | @cons entry entry' _ _ hentry _ ih =>
      rw [List.find?_cons, List.find?_cons, hentry.isPii_eq]
      split
      · exact Option.Rel.some hentry.type_eq
      · apply ih

theorem documents_eq (hsame : sealing.SameBut sealing')
    (h : List.Forall₂ (SealsAlike sealing sealing' available) entries entries')
    (haccepted : ∀ entry ∈ entries, (!available && entry.isPii) = false) (first : ℕ) :
  MongoArchive.documents (sealing'.resolved available) first entries'
    = MongoArchive.documents (sealing.resolved available) first entries
  := by
  have hsession : (sealing'.resolved available).sessionId
      = (sealing.resolved available).sessionId := by
    rw [sessionId_resolved, sessionId_resolved, hsame]
  induction h generalizing first with
  | nil => rfl
  | @cons entry entry' _ _ hentry _ ih =>
      rw [MongoArchive.documents, MongoArchive.documents, hsession,
        hentry.stored_eq hsame (haccepted entry List.mem_cons_self), ih]
      intro other hmem
      apply haccepted other (List.mem_cons_of_mem entry hmem)

/-- A batch is archived, refused or rejected the same. -/
theorem archiveMany_eq (hsame : sealing.SameBut sealing')
    (h : List.Forall₂ (SealsAlike sealing sealing' available) entries entries')
    (archive : MongoArchive) :
  archive.archiveMany sealing' available entries' = archive.archiveMany sealing available entries
  := by
  have hfind := find?_refused h
  have hlength := h.length_eq
  have hdocuments := documents_eq hsame h
  have hsession : sealing'.sessionId = sealing.sessionId := by rw [hsame]
  have hliterals : sealing'.literals = sealing.literals := by rw [hsame]
  cases h with
  | nil => rfl
  | @cons first first' rest rest' hfirst hrest =>
      rw [MongoArchive.archiveMany, MongoArchive.archiveMany]
      dsimp only
      rw [hsession, hliterals, hfirst.epoch_eq, ← hlength]
      cases hrefused : (first :: rest).find? (fun entry => !available && entry.isPii) with
      | some refused =>
          rw [hrefused] at hfind
          cases hrefused' : (first' :: rest').find? (fun entry => !available && entry.isPii) with
          | none =>
              rw [hrefused'] at hfind
              cases hfind
          | some refused' =>
              rw [hrefused'] at hfind
              obtain ⟨htype⟩ := hfind
              dsimp only
              rw [htype]
      | none =>
          rw [hrefused] at hfind
          have haccepted : ∀ entry ∈ first :: rest, (!available && entry.isPii) = false := by
            intro other hmem
            exact Bool.eq_false_iff.mpr (List.find?_eq_none.mp hrefused other hmem)
          cases hrefused' : (first' :: rest').find? (fun entry => !available && entry.isPii) with
          | some refused' =>
              rw [hrefused'] at hfind
              cases hfind
          | none => simp only [hdocuments haccepted]

end SealsAlike

/-- A flush has no use for the cipher. -/
theorem ArchiveProcess.step_flush (hsame : sealing.SameBut sealing') {action : ArchiveAction}
    (hflush : action.isFlush = true) (process : ArchiveProcess) :
  process.step sealing' action = process.step sealing action
  := by
  have hsession : sealing'.sessionId = sealing.sessionId := by rw [hsame]
  cases action with
  | archive => cases hflush
  | _ => simp only [ArchiveProcess.step, hsession]

namespace ArchiveFleet

theorem step_alike (hsame : ∀ sessionId,
      (sealings.sealing sessionId).SameBut (sealings'.sealing sessionId))
    {action action' : SessionId × ArchiveAction} (h : ActionsAlike sealings sealings' action action')
    (fleet : ArchiveFleet) :
  fleet.step sealings' action' = fleet.step sealings action
  := by
  cases h with
  | archive sessionId available h =>
      rw [step, step]
      dsimp only
      rw [ArchiveProcess.step, ArchiveProcess.step, outcome, outcome,
        SealsAlike.archiveMany_eq (hsame sessionId) h, sealings.named, sealings'.named]
  | @flush sessionId action hflush =>
      have houtcome : ∀ sealing, outcome sealing fleet.archive action = [] := by
        intro sealing
        cases action with
        | archive => cases hflush
        | _ => rfl
      rw [step, step]
      dsimp only
      rw [ArchiveProcess.step_flush (hsame sessionId) hflush, houtcome, houtcome]

/-- At the end of any run of batches and flushes of any number of sessions, the PII in the
collections is sealed with the cipher of its session, and a run with other ciphers and other PII
that is sealed to the same ends the same. -/
theorem pii_sealed_at_rest (sealings : SessionSealings)
    {actions : List (SessionId × ArchiveAction)} {fleet : ArchiveFleet}
    (hrun : TransitionSystem.run (step sealings) initial actions = some fleet) :
  SealedAtRest sealings fleet.archive
    ∧ ∀ (sealings' : SessionSealings) (actions' : List (SessionId × ArchiveAction)),
      (∀ sessionId, (sealings.sealing sessionId).SameBut (sealings'.sealing sessionId)) →
        List.Forall₂ (ActionsAlike sealings sealings') actions actions' →
          TransitionSystem.run (step sealings') initial actions' = some fleet
  := by
  constructor
  · have hsealed : Sealed sealings fleet := by
      apply TransitionSystem.run_invariant _ sealed_initial hrun
      intro before action after h hstep
      apply h.step hstep
    apply hsealed.atRest
  · intro sealings' actions' hsame halike
    have hrel : Option.Rel Eq (TransitionSystem.run (step sealings) initial actions)
        (TransitionSystem.run (step sealings') initial actions') := by
      refine TransitionSystem.run_rel ?_ rfl halike
      rintro before _ action action' rfl haction
      rw [step_alike hsame haction]
      cases step sealings before action with
      | none => apply Option.Rel.none
      | some next => apply Option.Rel.some rfl
    rw [hrun] at hrel
    generalize TransitionSystem.run (step sealings') initial actions' = reached at hrel ⊢
    cases hrel with
    | some heq => rw [heq]

/-- The sealings of a fleet whose ciphers shift every letter by a key. -/
def shiftSealings (key : ℕ) : SessionSealings where
  sealing sessionId :=
    { sessionId := sessionId
      literals := ⟨fun _ => "", fun _ => true⟩
      cipher :=
        { encrypt := fun plaintext =>
            String.ofList (plaintext.toList.map (fun c => Char.ofNat (c.toNat + key)))
          decrypt := fun ciphertext =>
            String.ofList (ciphertext.toList.map (fun c => Char.ofNat (c.toNat - key)))
          mac := fun _ => "mac" }
      sha256 := fun _ => "digest"
      dumps := fun value =>
        match value with
        | .str text => text
        | _ => ""
      loads := .str }
  named _ := rfl

/-- A phone number observed by the first epoch. -/
def phoneEntry (number : String) : ArchivedDataPoint where
  type := "phone"
  valueHash := ""
  value := .str number
  retrievedBy := "collector"
  firstRetrieved := 1000
  lastRetrieved := 1000
  isPii := true
  epoch := 1

/-- A session without a key is refused; another archives a phone number, and its flush dies with
the row committed and not yet deleted. -/
def phoneActions (number : String) : List (SessionId × ArchiveAction) :=
  [("t", .archive false [phoneEntry "555"]), ("s", .archive true [phoneEntry number]),
    ("s", .start), ("s", .fetch), ("s", .write), ("s", .die)]

theorem pii_sealed_at_rest_phone :
  ∃ fleet, TransitionSystem.run (step (shiftSealings 1)) initial (phoneActions "012") = some fleet
    ∧ SealedAtRest (shiftSealings 1) fleet.archive
    ∧ TransitionSystem.run (step (shiftSealings 2)) initial (phoneActions "/01") = some fleet
  := by
  obtain ⟨fleet, hfleet⟩ : ∃ fleet, TransitionSystem.run (step (shiftSealings 1)) initial
      (phoneActions "012") = some fleet := ⟨_, rfl⟩
  obtain ⟨hsealed, halike⟩ := pii_sealed_at_rest (shiftSealings 1) hfleet
  use fleet, hfleet, hsealed
  apply halike
  · intro sessionId
    rfl
  · apply List.Forall₂.cons
    · apply ActionsAlike.archive
      apply List.Forall₂.cons _ .nil
      constructor
      · rfl
      · intro _
        rfl
      · intro hkey
        cases hkey
    · apply List.Forall₂.cons
      · apply ActionsAlike.archive
        apply List.Forall₂.cons _ .nil
        constructor
        · rfl
        · intro hplain
          cases hplain
        · intro _ _
          exact ⟨by decide, rfl⟩
      · repeat' apply List.Forall₂.cons
        all_goals first
          | exact ActionsAlike.flush "s" rfl
          | exact .nil

end ArchiveFleet

end Orcastork
