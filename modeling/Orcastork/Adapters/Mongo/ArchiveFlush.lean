import Orcastork.Adapters.Mongo.ArchiveRows

/-!
# A flush is not seen by a reader

Whatever a flush has done, the committed entry of a key joined with the observations of the
key that are still buffered is what all observations of the key make together (`ArchiveHolds`). A
batch adds observations on both sides. An upsert joins an observation into the committed
entry ahead of those buffered before it: if there was no entry, the observation is the first
of its key. A deletion takes an observation away that the committed entry has absorbed. So a
read between any two steps returns what it did before the flush, and a flush that is not
interrupted leaves nothing buffered.
-/

namespace Orcastork

open MongoArchive

/-- No digest contains the delimiter of an `_id`. -/
structure Sealing.Digests (sealing : Sealing) : Prop where
  sha256 : ∀ text, Undelimited (sealing.sha256 text)
  mac : ∀ text, Undelimited (sealing.cipher.mac text)

namespace MongoArchive

/-- The last sequence number a session was given. -/
def lastSequence (archive : MongoArchive) (sessionId : SessionId) : ℕ :=
  match archive.metas.get? sessionId with
  | none => 0
  | some counters => counters.sequence

theorem lastSequence_of_none {archive : MongoArchive} {sessionId : SessionId}
    (h : archive.metas.get? sessionId = none) :
  archive.lastSequence sessionId = 0
  := by
  rw [lastSequence, h]

theorem lastSequence_of_some {archive : MongoArchive} {sessionId : SessionId}
    {counters : ArchiveMeta} (h : archive.metas.get? sessionId = some counters) :
  archive.lastSequence sessionId = counters.sequence
  := by
  rw [lastSequence, h]

end MongoArchive

/-! ### Where a flush is -/

/-- The committed entry of an observation's key has absorbed it. -/
def Absorbed (sessionId : SessionId) (committed : Dict String CommittedRow)
    (entry : ArchivedDataPoint) : Prop :=
  ∃ existing, held sessionId committed entry.key = some existing
    ∧ ArchiveState.upsert.join existing entry = existing

/-- A page is being flushed: the observations of its first rows are absorbed; while some are
left to write, it is a first part of the buffer; and behind it lie later rows. -/
structure Flushing (sessionId : SessionId) (archive : MongoArchive)
    (page remaining : List BufferRow) : Prop where
  written : ∃ written, page = written ++ remaining
    ∧ ∀ row ∈ written, Absorbed sessionId archive.committed row.entry
  nonempty : page ≠ []
  own : ∀ row ∈ page, row.sessionId = sessionId ∧ Undelimited row.entry.valueHash
    ∧ row.sequence ≤ archive.lastSequence sessionId
  behind : ∀ row ∈ archive.rowsOf sessionId,
    row ∈ page ∨ ∀ paged ∈ page, paged.sequence < row.sequence
  front : remaining ≠ [] → page <+: archive.rowsOf sessionId

/-- What holds where a flush is. -/
def FlushPoint.At (sessionId : SessionId) (archive : MongoArchive) : FlushPoint → Prop
  | .idle => True
  | .fetching after => after ≤ archive.lastSequence sessionId
    ∧ ∀ row ∈ archive.rowsOf sessionId, after < row.sequence
  | .flushing page remaining => Flushing sessionId archive page remaining

/-- The archive holds the observations `docs` of the session, in the order they were made. -/
structure ArchiveHolds (sessionId : SessionId) (docs : List ArchivedDataPoint)
    (process : ArchiveProcess) : Prop where
  keyed : RowsKeyed process.archive.committed
  hashes : ∀ row ∈ process.archive.rowsOf sessionId, Undelimited row.entry.valueHash
  sorted : (process.archive.rowsOf sessionId).Pairwise (fun a b => a.sequence < b.sequence)
  numbered : ∀ row ∈ process.archive.rowsOf sessionId,
    row.sequence ≤ process.archive.lastSequence sessionId
  undelimited : ∀ entry ∈ docs, Undelimited entry.valueHash
  total : ∀ key : DataPointType × String, Undelimited key.2 →
    ArchiveState.upsert.absorbAll (held sessionId process.archive.committed key)
        ((process.archive.bufferedEntries sessionId).filter (fun entry => entry.key = key))
      = ArchiveState.upsert.absorbAll none (docs.filter (fun entry => entry.key = key))
  point : process.point.At sessionId process.archive

/-! ### Archiving a batch -/

section Documents

variable {sealing : Sealing}

theorem map_entry_documents (first : ℕ) (entries : List ArchivedDataPoint) :
  (documents sealing first entries).map BufferRow.entry = entries.map (stored sealing)
  := by
  induction entries generalizing first with
  | nil => rfl
  | cons entry entries ih =>
      rw [documents, List.map_cons, ih, List.map_cons]

theorem sessionId_documents {first : ℕ} {entries : List ArchivedDataPoint} {row : BufferRow}
    (h : row ∈ documents sealing first entries) :
  row.sessionId = sealing.sessionId
  := by
  induction entries generalizing first with
  | nil => cases h
  | cons entry entries ih =>
      rcases List.mem_cons.mp h with rfl | h
      · rfl
      · exact ih h

theorem sequence_documents {first : ℕ} {entries : List ArchivedDataPoint} {row : BufferRow}
    (h : row ∈ documents sealing first entries) :
  first ≤ row.sequence ∧ row.sequence < first + entries.length
  := by
  induction entries generalizing first with
  | nil => cases h
  | cons entry entries ih =>
      rw [List.length_cons]
      rcases List.mem_cons.mp h with rfl | h
      · constructor
        · exact le_refl first
        · simp only
          omega
      · have hrest := ih h
        omega

theorem pairwise_documents (first : ℕ) (entries : List ArchivedDataPoint) :
  (documents sealing first entries).Pairwise (fun a b => a.sequence < b.sequence)
  := by
  induction entries generalizing first with
  | nil => exact .nil
  | cons entry entries ih =>
      apply List.Pairwise.cons _ (ih (first + 1))
      intro row hrow
      exact (sequence_documents hrow).1

theorem undelimited_stored (h : sealing.Digests) (entry : ArchivedDataPoint) :
  Undelimited (stored sealing entry).valueHash
  := by
  simp only [stored, Sealing.sealer, Sealing.valueHash]
  split
  · exact h.mac _
  · exact h.sha256 _

/-- Without PII the cipher does not matter. -/
theorem stored_resolved {available : Bool} {entry : ArchivedDataPoint}
    (h : (!available && entry.isPii) = false) :
  stored (sealing.resolved available) entry = stored sealing entry
  := by
  cases available with
  | true => rfl
  | false =>
      have hpii : entry.isPii = false := by simpa using h
      simp only [stored, Sealing.sealer, Sealing.sealEntry, Sealing.valueHash, hpii]
      rfl

theorem sessionId_resolved (available : Bool) :
  (sealing.resolved available).sessionId = sealing.sessionId
  := by
  cases available with
  | true => rfl
  | false => rfl

end Documents

/-- A batch was numbered on from the last number and buffered whole. -/
structure Buffers (sealing : Sealing) (entries : List ArchivedDataPoint)
    (archive next : MongoArchive) : Prop where
  committed : next.committed = archive.committed
  lastSequence : next.lastSequence sealing.sessionId
    = archive.lastSequence sealing.sessionId + entries.length
  rows : ∃ rows, next.buffer = archive.buffer ++ rows
    ∧ rows.map BufferRow.entry = entries.map (stored sealing)
    ∧ rows.Pairwise (fun a b => a.sequence < b.sequence)
    ∧ ∀ row ∈ rows, row.sessionId = sealing.sessionId
      ∧ archive.lastSequence sealing.sessionId < row.sequence
      ∧ row.sequence ≤ next.lastSequence sealing.sessionId

/-- A batch that is accepted is buffered; any other changes nothing. -/
theorem archiveMany_cases (sealing : Sealing) (available : Bool) (archive : MongoArchive)
    (entries : List ArchivedDataPoint) :
  (∃ next, archive.archiveMany sealing available entries = (.ok (), next)
      ∧ Buffers sealing entries archive next)
    ∨ ∃ error, archive.archiveMany sealing available entries = (.error error, archive)
  := by
  cases entries with
  | nil => exact Or.inl ⟨archive, rfl, rfl, rfl, [], by simp, rfl, .nil, by simp⟩
  | cons first rest =>
      rw [archiveMany]
      split
      · exact Or.inr ⟨_, rfl⟩
      · rename_i hfind
        have hstored : (first :: rest).map (stored (sealing.resolved available))
            = (first :: rest).map (stored sealing) := by
          apply List.map_congr_left
          intro entry hentry
          apply stored_resolved
          exact Bool.eq_false_iff.mpr (List.find?_eq_none.mp hfind entry hentry)
        split
        · exact Or.inr ⟨_, rfl⟩
        · rename_i last next hallocate
          left
          have hnext : next.committed = archive.committed ∧ next.buffer = archive.buffer
              ∧ last = archive.lastSequence sealing.sessionId + (first :: rest).length
              ∧ next.lastSequence sealing.sessionId = last := by
            rw [allocate] at hallocate
            split at hallocate
            · rename_i hmeta
              cases hallocate
              rw [lastSequence_of_none hmeta, lastSequence_of_some (Dict.get?_set_self _ _ _)]
              exact ⟨rfl, rfl, (Nat.zero_add _).symm, rfl⟩
            · rename_i counters hmeta
              split at hallocate
              · cases hallocate
                rw [lastSequence_of_some hmeta, lastSequence_of_some (Dict.get?_set_self _ _ _)]
                exact ⟨rfl, rfl, rfl, rfl⟩
              · cases hallocate
          obtain ⟨hcommitted, hbuffer, rfl, hlast⟩ := hnext
          have hfirst : archive.lastSequence sealing.sessionId + (first :: rest).length
              - (first :: rest).length = archive.lastSequence sealing.sessionId :=
            Nat.add_sub_cancel _ _
          refine ⟨_, rfl, ⟨hcommitted, hlast, documents (sealing.resolved available)
            (archive.lastSequence sealing.sessionId + 1) (first :: rest), ?_, ?_, ?_, ?_⟩⟩
          · simp only [hbuffer, hfirst]
          · rw [map_entry_documents, hstored]
          · exact pairwise_documents _ _
          · intro row hrow
            have hsequence := sequence_documents hrow
            have hbound : row.sequence ≤ next.lastSequence sealing.sessionId := by
              rw [hlast]
              omega
            refine ⟨?_, hsequence.1, hbound⟩
            rw [sessionId_documents hrow, sessionId_resolved]

namespace ArchiveHolds

variable {sealing : Sealing} {docs : List ArchivedDataPoint} {process : ArchiveProcess}

/-- Rows numbered past the last go behind everything a flush has under way. -/
theorem at_append {archive next : MongoArchive} {sessionId : SessionId}
    {rows : List BufferRow} {point : FlushPoint}
    (hcommitted : next.committed = archive.committed)
    (hlast : archive.lastSequence sessionId ≤ next.lastSequence sessionId)
    (hrows : next.rowsOf sessionId = archive.rowsOf sessionId ++ rows)
    (hnew : ∀ row ∈ rows, archive.lastSequence sessionId < row.sequence)
    (h : point.At sessionId archive) :
  point.At sessionId next
  := by
  cases point with
  | idle => trivial
  | fetching after =>
      obtain ⟨hafter, hahead⟩ := h
      constructor
      · exact hafter.trans (Int.ofNat_le.mpr hlast)
      · intro row hrow
        rw [hrows] at hrow
        rcases List.mem_append.mp hrow with hrow | hrow
        · exact hahead row hrow
        · exact lt_of_le_of_lt hafter (Int.ofNat_lt.mpr (hnew row hrow))
  | flushing page remaining =>
      obtain ⟨hwritten, hnonempty, hown, hbehind, hfront⟩ := h
      rw [← hcommitted] at hwritten
      constructor
      · exact hwritten
      · exact hnonempty
      · intro row hrow
        obtain ⟨hsession, hhash, hsequence⟩ := hown row hrow
        exact ⟨hsession, hhash, hsequence.trans hlast⟩
      · intro row hrow
        rw [hrows] at hrow
        rcases List.mem_append.mp hrow with hrow | hrow
        · exact hbehind row hrow
        · right
          intro paged hpaged
          exact lt_of_le_of_lt (hown paged hpaged).2.2 (hnew row hrow)
      · intro hremaining
        rw [hrows]
        exact (hfront hremaining).trans (List.prefix_append _ rows)

/-- A batch that is buffered adds its observations. -/
theorem buffer (hdigests : sealing.Digests) (h : ArchiveHolds sealing.sessionId docs process)
    {entries : List ArchivedDataPoint} {next : MongoArchive}
    (hnext : Buffers sealing entries process.archive next) :
  ArchiveHolds sealing.sessionId (docs ++ entries.map (stored sealing))
    { process with archive := next }
  := by
  obtain ⟨hcommitted, hlast, rows, hbuffer, hentries, hrising, hown⟩ := hnext
  have hrows : next.rowsOf sealing.sessionId
      = process.archive.rowsOf sealing.sessionId ++ rows := by
    rw [rowsOf, hbuffer, List.filter_append]
    congr 1
    apply List.filter_eq_self.mpr
    intro row hrow
    exact decide_eq_true (hown row hrow).1
  constructor
  · simp only [hcommitted]
    exact h.keyed
  · intro row hrow
    simp only [hrows] at hrow
    rcases List.mem_append.mp hrow with hrow | hrow
    · exact h.hashes row hrow
    · have hentry : row.entry ∈ entries.map (stored sealing) := by
        rw [← hentries]
        exact List.mem_map_of_mem hrow
      obtain ⟨entry, -, heq⟩ := List.mem_map.mp hentry
      rw [← heq]
      exact undelimited_stored hdigests entry
  · simp only [hrows]
    apply List.pairwise_append.mpr
    refine ⟨h.sorted, hrising, ?_⟩
    intro row hrow row' hrow'
    exact lt_of_le_of_lt (h.numbered row hrow) (hown row' hrow').2.1
  · intro row hrow
    simp only [hrows] at hrow
    rcases List.mem_append.mp hrow with hrow | hrow
    · simp only [hlast]
      exact (h.numbered row hrow).trans (Nat.le_add_right _ _)
    · exact (hown row hrow).2.2
  · intro entry hentry
    rcases List.mem_append.mp hentry with hentry | hentry
    · exact h.undelimited entry hentry
    · obtain ⟨plain, -, rfl⟩ := List.mem_map.mp hentry
      exact undelimited_stored hdigests plain
  · intro key hkey
    simp only [hcommitted, bufferedEntries, hrows, List.map_append, hentries,
      List.filter_append, Upsert.absorbAll_append]
    congr 1
    exact h.total key hkey
  · apply at_append hcommitted _ hrows _ h.point
    · rw [hlast]
      exact Nat.le_add_right _ _
    · intro row hrow
      exact (hown row hrow).2.1

/-! ### The steps of a flush -/

variable {sessionId : SessionId} {archive : MongoArchive}

/-- The page of a fetch that has the whole buffer before it is a first part of the buffer. -/
theorem fetchPage_eq {point : FlushPoint} (h : ArchiveHolds sessionId docs ⟨archive, point⟩)
    {after : ℤ} (hafter : ∀ row ∈ archive.rowsOf sessionId, after < row.sequence) :
  archive.fetchPage sessionId after = (archive.rowsOf sessionId).take pageSize
  := by
  have hrising : (archive.rowsOf sessionId).Pairwise
      (fun a b => sequenceKey a < sequenceKey b) :=
    h.sorted.imp fun hab => Int.ofNat_lt.mpr hab
  have hall : Paging.past sequenceKey (archive.rowsOf sessionId) after
      = archive.rowsOf sessionId := by
    apply List.filter_eq_self.mpr
    intro row hrow
    exact decide_eq_true (hafter row hrow)
  rw [fetchPage, Paging.fetch, hall, Paging.inOrder_of_pairwise sequenceKey hrising]

/-- Where a flush is does not matter to what the archive holds. -/
theorem moved {point point' : FlushPoint} (h : ArchiveHolds sessionId docs ⟨archive, point⟩)
    (hpoint : point'.At sessionId archive) :
  ArchiveHolds sessionId docs ⟨archive, point'⟩
  := ⟨h.keyed, h.hashes, h.sorted, h.numbered, h.undelimited, h.total, hpoint⟩

/-- A flush starts ahead of all rows. -/
theorem start {point : FlushPoint} (h : ArchiveHolds sessionId docs ⟨archive, point⟩) :
  ArchiveHolds sessionId docs ⟨archive, .fetching (-1)⟩
  := by
  apply h.moved
  constructor
  · exact (Int.negSucc_lt_zero 0).le.trans (Int.natCast_nonneg _)
  · intro row _
    exact lt_of_lt_of_le (Int.negSucc_lt_zero 0) (Int.natCast_nonneg row.sequence)

/-- A page that was fetched is a first part of the buffer, none of it written. -/
theorem fetch {after : ℤ} (h : ArchiveHolds sessionId docs ⟨archive, .fetching after⟩)
    (hpage : archive.fetchPage sessionId after ≠ []) :
  ArchiveHolds sessionId docs
    ⟨archive, .flushing (archive.fetchPage sessionId after)
      (archive.fetchPage sessionId after)⟩
  := by
  have heq := h.fetchPage_eq h.point.2
  have hprefix : archive.fetchPage sessionId after <+: archive.rowsOf sessionId := by
    rw [heq]
    exact List.take_prefix pageSize _
  apply h.moved
  constructor
  · exact ⟨[], rfl, fun row hrow => absurd hrow List.not_mem_nil⟩
  · exact hpage
  · intro row hrow
    have hmem := hprefix.subset hrow
    have hown : row.sessionId = sessionId := by simpa using (List.mem_filter.mp hmem).2
    exact ⟨hown, h.hashes row hmem, h.numbered row hmem⟩
  · intro row hrow
    obtain ⟨rest, hrest⟩ := hprefix
    have hsorted := h.sorted
    rw [← hrest] at hrow hsorted
    rcases List.mem_append.mp hrow with hrow | hrow
    · exact Or.inl hrow
    · right
      intro paged hpaged
      exact (List.pairwise_append.mp hsorted).2.2 paged hpaged row hrow
  · intro _
    exact hprefix

/-- An upsert joins an observation of the page into the committed entry of its key. -/
theorem write (hsession : Undelimited sessionId) {page remaining : List BufferRow}
    {row : BufferRow}
    (h : ArchiveHolds sessionId docs ⟨archive, .flushing page (row :: remaining)⟩) :
  ArchiveHolds sessionId docs
    ⟨{ archive with committed := upsertRow sessionId archive.committed row.entry },
      .flushing page remaining⟩
  := by
  have hlawful := ArchiveState.upsert_lawful
  obtain ⟨⟨written, hpage, habsorbed⟩, hnonempty, hown, hbehind, hfront⟩ := h.point
  have hrow : row ∈ page := by simp [hpage]
  have hhash := (hown row hrow).2.1
  obtain ⟨rest, hrest⟩ := hfront (List.cons_ne_nil row remaining)
  have hheld {key : DataPointType × String} (hkey : Undelimited key.2) :=
    held_upsertRow h.keyed hsession hhash hkey
  constructor
  · exact rowsKeyed_upsertRow h.keyed hsession hhash
  · exact h.hashes
  · exact h.sorted
  · exact h.numbered
  · exact h.undelimited
  · intro key hkey
    have htotal := h.total key hkey
    simp only [hheld hkey]
    split
    · rename_i hsame
      cases hexisting : held sessionId archive.committed key with
      | some existing =>
          -- The observation is buffered, so joining it in early makes no difference.
          have hbuffered : row.entry ∈ (archive.bufferedEntries sessionId).filter
              (fun entry => entry.key = key) := by
            apply List.mem_filter.mpr
            refine ⟨List.mem_map_of_mem ?_, decide_eq_true hsame⟩
            rw [← hrest]
            exact List.mem_append_left rest hrow
          simp only [hexisting] at htotal
          rw [← htotal]
          exact hlawful.absorbAll_join hbuffered
      | none =>
          -- No row before it has the key, so the observation is the first of its key.
          have hbefore : (written.map BufferRow.entry).filter
              (fun entry => entry.key = key) = [] := by
            apply List.filter_eq_nil_iff.mpr
            intro entry hentry hsame'
            obtain ⟨before, hmem, rfl⟩ := List.mem_map.mp hentry
            obtain ⟨existing, hsome, -⟩ := habsorbed before hmem
            rw [of_decide_eq_true hsame', hexisting] at hsome
            cases hsome
          have hfirst : ∃ others, (archive.bufferedEntries sessionId).filter
              (fun entry => entry.key = key) = row.entry :: others := by
            rw [bufferedEntries, ← hrest, hpage]
            simp only [List.map_append, List.map_cons, List.filter_append, hbefore,
              List.nil_append, List.filter_cons, hsame, decide_true, if_true, List.cons_append]
            exact ⟨_, rfl⟩
          obtain ⟨others, hothers⟩ := hfirst
          simp only [hexisting, hothers] at htotal
          rw [← htotal]
          simp only [bufferedEntries, rowsOf] at hothers ⊢
          rw [hothers]
          exact hlawful.absorbAll_first row.entry others
    · exact htotal
  · constructor
    · refine ⟨written ++ [row], by simp [hpage], ?_⟩
      intro row' hrow'
      rcases List.mem_append.mp hrow' with hrow' | hrow'
      · obtain ⟨existing, hsome, hjoin⟩ := habsorbed row' hrow'
        have hhash' := (hown row' (by simp [hpage, hrow'])).2.1
        rw [Absorbed, hheld hhash']
        split
        · exact ⟨_, by rw [hsome]; rfl, hlawful.absorbed_join hjoin row.entry⟩
        · exact ⟨existing, hsome, hjoin⟩
      · rw [List.mem_singleton.mp hrow', Absorbed, hheld hhash, if_pos rfl]
        refine ⟨_, rfl, ?_⟩
        cases held sessionId archive.committed row.entry.key with
        | none => exact hlawful.join_self row.entry
        | some existing => exact hlawful.join_join_self existing row.entry
    · exact hnonempty
    · exact hown
    · exact hbehind
    · intro _
      exact ⟨rest, hrest⟩

/-- A deletion takes away an observation that the committed entry has absorbed. -/
theorem delete {page : List BufferRow} {row : BufferRow}
    (h : ArchiveHolds sessionId docs ⟨archive, .flushing page []⟩)
    (hrow : page.any (sameDocument row) = true) :
  ArchiveHolds sessionId docs
    ⟨{ archive with buffer := deleteRows archive.buffer [row] }, .flushing page []⟩
  := by
  obtain ⟨⟨written, hpage, habsorbed⟩, hnonempty, hown, hbehind, -⟩ := h.point
  rw [List.append_nil] at hpage
  subst hpage
  have hrows : rowsOf { archive with buffer := deleteRows archive.buffer [row] } sessionId
      = (archive.rowsOf sessionId).filter (fun other => !sameDocument other row) := by
    simp only [rowsOf, deleteRows, List.any_cons, List.any_nil, Bool.or_false,
      List.filter_filter, Bool.and_comm]
  have hsubset : ∀ other ∈ rowsOf { archive with buffer := deleteRows archive.buffer [row] }
      sessionId, other ∈ archive.rowsOf sessionId := by
    intro other hother
    rw [hrows] at hother
    exact List.mem_of_mem_filter hother
  constructor
  · exact h.keyed
  · intro other hother
    exact h.hashes other (hsubset other hother)
  · simp only [hrows]
    exact h.sorted.filter _
  · intro other hother
    exact h.numbered other (hsubset other hother)
  · exact h.undelimited
  · intro key hkey
    rw [← h.total key hkey]
    simp only [bufferedEntries, hrows, List.filter_map]
    rw [List.filter_comm]
    apply ArchiveState.upsert_lawful.absorbAll_filter
    intro other hother hsame
    obtain ⟨hmem, hkey'⟩ := List.mem_filter.mp hother
    obtain ⟨paged, hpaged, hsame'⟩ := List.any_eq_true.mp hrow
    simp only [sameDocument, Bool.not_eq_false', Bool.and_eq_true, decide_eq_true_eq] at hsame hsame'
    have hsequence : paged.sequence = other.sequence := hsame'.2.symm.trans hsame.2.symm
    rcases hbehind other hmem with hother' | hlater
    · obtain ⟨existing, hexisting, hjoin⟩ := habsorbed other hother'
      rw [of_decide_eq_true hkey'] at hexisting
      exact ⟨existing, hexisting, hjoin⟩
    · exact absurd hsequence (ne_of_lt (hlater paged hpaged))
  · constructor
    · exact ⟨page, by simp, habsorbed⟩
    · exact hnonempty
    · exact hown
    · intro other hother
      exact hbehind other (hsubset other hother)
    · intro hremaining
      exact absurd rfl hremaining

/-- With its page deleted, a flush has the rows past the page ahead. -/
theorem deleted {page : List BufferRow} {last : BufferRow}
    (h : ArchiveHolds sessionId docs ⟨archive, .flushing page []⟩)
    (hgone : archive.buffer.all (fun row => !page.any (sameDocument row)) = true)
    (hlast : page.getLast? = some last) :
  ArchiveHolds sessionId docs ⟨archive, .fetching last.sequence⟩
  := by
  have hmem : last ∈ page := List.mem_of_getLast? hlast
  apply h.moved
  constructor
  · exact Int.ofNat_le.mpr (h.point.own last hmem).2.2
  · intro row hrow
    rcases h.point.behind row hrow with hpaged | hlater
    · have hnot := List.all_eq_true.mp hgone row (List.mem_of_mem_filter hrow)
      have hsame : page.any (sameDocument row) = true :=
        List.any_eq_true.mpr ⟨row, hpaged, by simp [sameDocument]⟩
      rw [hsame] at hnot
      cases hnot
    · exact Int.ofNat_lt.mpr (hlater last hmem)

/-- A step keeps what the archive holds, or adds the observations of a batch. -/
theorem step (hdigests : sealing.Digests) (hsession : Undelimited sealing.sessionId)
    {next : ArchiveProcess} {action : ArchiveAction}
    (h : ArchiveHolds sealing.sessionId docs process)
    (hstep : process.step sealing action = some next) :
  ArchiveHolds sealing.sessionId docs next
    ∨ ∃ available entries, action = .archive available entries
      ∧ (process.archive.archiveMany sealing available entries).1 = .ok ()
      ∧ ArchiveHolds sealing.sessionId (docs ++ entries.map (stored sealing)) next
  := by
  obtain ⟨archive, point⟩ := process
  cases action with
  | archive available entries =>
      cases hstep
      rcases archiveMany_cases sealing available archive entries with
        ⟨next, hnext, hbuffers⟩ | ⟨error, herror⟩
      · right
        refine ⟨available, entries, rfl, ?_, ?_⟩
        · rw [hnext]
        · simp only [hnext]
          exact h.buffer hdigests hbuffers
      · left
        simp only [herror]
        exact h
  | start =>
      cases point with
      | idle =>
          cases hstep
          exact Or.inl h.start
      | fetching after => cases hstep
      | flushing page remaining => cases hstep
  | fetch =>
      cases point with
      | idle => cases hstep
      | fetching after =>
          simp only [ArchiveProcess.step] at hstep
          split at hstep
          · cases hstep
            exact Or.inl (h.moved trivial)
          · rename_i hpage
            cases hstep
            left
            apply h.fetch
            simpa using hpage
      | flushing page remaining => cases hstep
  | write =>
      cases point with
      | idle => cases hstep
      | fetching after => cases hstep
      | flushing page remaining =>
          cases remaining with
          | nil => cases hstep
          | cons row remaining =>
              cases hstep
              exact Or.inl (h.write hsession)
  | delete row =>
      cases point with
      | idle => cases hstep
      | fetching after => cases hstep
      | flushing page remaining =>
          cases remaining with
          | nil =>
              simp only [ArchiveProcess.step] at hstep
              split at hstep
              · rename_i hrow
                cases hstep
                exact Or.inl (h.delete hrow)
              · cases hstep
          | cons row remaining => cases hstep
  | deleted =>
      cases point with
      | idle => cases hstep
      | fetching after => cases hstep
      | flushing page remaining =>
          cases remaining with
          | nil =>
              simp only [ArchiveProcess.step] at hstep
              split at hstep
              · rename_i hgone
                obtain ⟨last, hlast, rfl⟩ := Option.map_eq_some_iff.mp hstep
                exact Or.inl (h.deleted hgone hlast)
              · cases hstep
          | cons row remaining => cases hstep
  | die =>
      cases hstep
      exact Or.inl (h.moved trivial)

/-- A flush, however far it comes, keeps what the archive holds. -/
theorem run_flush (hdigests : sealing.Digests) (hsession : Undelimited sealing.sessionId)
    {next : ArchiveProcess} {actions : List ArchiveAction}
    (hactions : actions.all ArchiveAction.isFlush = true)
    (h : ArchiveHolds sealing.sessionId docs process)
    (hrun : TransitionSystem.run (ArchiveProcess.step sealing) process actions = some next) :
  ArchiveHolds sealing.sessionId docs next
  := by
  induction actions generalizing process with
  | nil =>
      cases hrun
      exact h
  | cons action actions ih =>
      obtain ⟨middle, hstep, hrun⟩ := TransitionSystem.run_cons_eq_some.mp hrun
      rw [List.all_cons, Bool.and_eq_true] at hactions
      apply ih hactions.2 _ hrun
      rcases h.step hdigests hsession hstep with hmiddle | ⟨available, entries, rfl, -, -⟩
      · exact hmiddle
      · cases hactions.1

/-- After any run the archive holds what it held and the observations of the batches that
were accepted. -/
theorem run (hdigests : sealing.Digests) (hsession : Undelimited sealing.sessionId)
    {next : ArchiveProcess} {actions : List ArchiveAction}
    (h : ArchiveHolds sealing.sessionId docs process)
    (hrun : TransitionSystem.run (ArchiveProcess.step sealing) process actions = some next) :
  ∃ later, ArchiveHolds sealing.sessionId (docs ++ later) next
  := by
  induction actions generalizing process docs with
  | nil =>
      cases hrun
      exact ⟨[], by rw [List.append_nil]; exact h⟩
  | cons action actions ih =>
      obtain ⟨middle, hstep, hrun⟩ := TransitionSystem.run_cons_eq_some.mp hrun
      rcases h.step hdigests hsession hstep with hmiddle | ⟨available, entries, -, -, hmiddle⟩
      · exact ih hmiddle hrun
      · obtain ⟨later, hlater⟩ := ih hmiddle hrun
        use entries.map (stored sealing) ++ later
        rw [← List.append_assoc]
        exact hlater

end ArchiveHolds

end Orcastork
