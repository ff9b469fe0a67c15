import Orcastork.Adapters.Mongo.ArchiveFlush

/-!
# Reads of the Mongo archive

What a read returns is determined by the observations the archive holds, so no step of a
flush changes it (`ArchiveHolds.read_eq`). The loop of `flush` is a run of such steps, and leaves
nothing buffered (`ArchiveHolds.flushFrom`). Given the same batches, the in-memory archive holds
the same observations, at a finer resolution of time (`InMemory`).
-/

namespace Orcastork

open MongoArchive

/-! ### A read from the observations -/

/-- What a read returns of the observations an archive holds. -/
def readOf (sealing : Sealing) (available : Bool) (docs : List ArchivedDataPoint) :
    Except OrchestrationError (List ArchivedDataPoint) :=
  let entries := Paging.inOrder ArchivedDataPoint.sortKey (ArchiveState.upsert.putAll [] docs)
  if !available && entries.any ArchivedDataPoint.isPii then
    .error (.piiKeyUnavailable
      s!"cannot unseal PII for session {sealing.sessionId}: namespace key unavailable")
  else
    .ok (entries.map (sealing.resolved available).unsealEntry)

/-- Entries of distinct keys are sorted in one way. -/
theorem nodup_sortKey {entries : List ArchivedDataPoint}
    (h : (entries.map ArchiveState.upsert.key).Nodup) :
  (entries.map ArchivedDataPoint.sortKey).Nodup
  := by
  apply List.Nodup.of_map (fun key => ofLex (ofLex key).2)
  rw [List.map_map]
  exact h

theorem nodup_putAll_nil (docs : List ArchivedDataPoint) :
  ((ArchiveState.upsert.putAll [] docs).map ArchiveState.upsert.key).Nodup
  := ArchiveState.upsert.nodup_putAll (l := []) List.nodup_nil docs

namespace ArchiveHolds

variable {sessionId : SessionId} {docs : List ArchivedDataPoint} {process : ArchiveProcess}

/-- A read folds what all observations make together. -/
theorem perm_folded (hsession : Undelimited sessionId) (h : ArchiveHolds sessionId docs process) :
  (process.archive.folded sessionId).values.Perm (ArchiveState.upsert.putAll [] docs)
  := by
  have hvalues := values_folded h.keyed hsession h.sorted
  apply ArchiveState.upsert.perm_of_row
  · rw [hvalues]
    exact ArchiveState.upsert.nodup_putAll (nodup_committedEntries h.keyed hsession) _
  · exact nodup_putAll_nil docs
  · intro key
    by_cases hkey : Undelimited key.2
    · rw [row_folded h.keyed hsession h.sorted hkey, h.total key hkey, Upsert.row_putAll]
      rfl
    · -- No observation has such a key.
      have hnone : ∀ entries : List ArchivedDataPoint,
          (∀ entry ∈ entries, Undelimited entry.valueHash) →
          entries.filter (fun entry => ArchiveState.upsert.key entry = key) = [] := by
        intro entries hentries
        apply List.filter_eq_nil_iff.mpr
        intro entry hentry hsame
        apply hkey
        rw [← of_decide_eq_true hsame]
        exact hentries entry hentry
      have hcommitted : ArchiveState.upsert.row key
          (process.archive.committedEntries sessionId) = none := by
        rw [← Option.not_isSome_iff_eq_none, Upsert.row_isSome_iff]
        intro hmem
        obtain ⟨entry, hentry, rfl⟩ := List.mem_map.mp hmem
        obtain ⟨item, hitem, rfl⟩ := List.mem_map.mp hentry
        obtain ⟨hget, -⟩ := (mem_committedOf h.keyed hsession).mp hitem
        exact hkey (h.keyed item.1 item.2 hget).hash
      have hbuffered : ∀ entry ∈ process.archive.bufferedEntries sessionId,
          Undelimited entry.valueHash := by
        intro entry hentry
        obtain ⟨row, hrow, rfl⟩ := List.mem_map.mp hentry
        exact h.hashes row hrow
      rw [hvalues, Upsert.row_putAll, Upsert.row_putAll, hcommitted, hnone _ hbuffered,
        hnone docs h.undelimited]
      rfl

/-- What a read returns is determined by the observations. -/
theorem read_eq {sealing : Sealing} (hsession : Undelimited sealing.sessionId)
    (h : ArchiveHolds sealing.sessionId docs process) (available : Bool) :
  process.archive.read sealing available = readOf sealing available docs
  := by
  have hperm := h.perm_folded hsession
  have hnodup : ((process.archive.folded sealing.sessionId).values.map
      ArchiveState.upsert.key).Nodup :=
    (hperm.map ArchiveState.upsert.key).nodup_iff.mpr (nodup_putAll_nil docs)
  have hsame := Paging.inOrder_congr ArchivedDataPoint.sortKey (nodup_sortKey hnodup) hperm
  rw [MongoArchive.read, hsame]
  rfl

end ArchiveHolds

/-! ### A flush that is not interrupted -/

section Flush

variable {sealing : Sealing}

/-- The operations of a bulk write, one after another. -/
theorem run_writes (archive : MongoArchive) (page remaining : List BufferRow) :
  TransitionSystem.run (ArchiveProcess.step sealing) ⟨archive, .flushing page remaining⟩
      (remaining.map (fun _ => .write))
    = some
        ⟨{ archive with
            committed := (remaining.map BufferRow.entry).foldl
              (upsertRow sealing.sessionId) archive.committed },
          .flushing page []⟩
  := by
  induction remaining generalizing archive with
  | nil => rfl
  | cons row remaining ih =>
      apply TransitionSystem.run_cons_eq_some.mpr
      exact ⟨_, rfl, ih _⟩

theorem deleteRows_cons (buffer : List BufferRow) (row : BufferRow) (rows : List BufferRow) :
  deleteRows (deleteRows buffer [row]) rows = deleteRows buffer (row :: rows)
  := by
  simp only [deleteRows, List.filter_filter, List.any_cons, List.any_nil, Bool.or_false,
    Bool.not_or, Bool.and_comm]

/-- The deletions of a page, one after another. -/
theorem run_deletes (archive : MongoArchive) {page rows : List BufferRow}
    (hrows : ∀ row ∈ rows, row ∈ page) :
  TransitionSystem.run (ArchiveProcess.step sealing) ⟨archive, .flushing page []⟩
      (rows.map .delete)
    = some ⟨{ archive with buffer := deleteRows archive.buffer rows }, .flushing page []⟩
  := by
  induction rows generalizing archive with
  | nil =>
      have hnone : deleteRows archive.buffer [] = archive.buffer := by
        simp [deleteRows]
      rw [hnone]
      rfl
  | cons row rows ih =>
      have hrow : page.any (sameDocument row) = true :=
        List.any_eq_true.mpr ⟨row, hrows row List.mem_cons_self, by simp [sameDocument]⟩
      rw [← deleteRows_cons]
      apply TransitionSystem.run_cons_eq_some.mpr
      use ⟨{ archive with buffer := deleteRows archive.buffer [row] }, .flushing page []⟩
      constructor
      · simp only [ArchiveProcess.step, hrow, if_true]
      · apply ih { archive with buffer := deleteRows archive.buffer [row] }
        intro other hother
        exact hrows other (List.mem_cons_of_mem row hother)

/-- Deleting the first page of the buffered rows leaves the rows behind it. -/
theorem rowsOf_deleteRows {archive : MongoArchive} {sessionId : SessionId}
    {committed : Dict String CommittedRow}
    (hsorted : (archive.rowsOf sessionId).Pairwise (fun a b => a.sequence < b.sequence))
    {count : ℕ} :
  rowsOf
      { archive with
        committed := committed
        buffer := deleteRows archive.buffer ((archive.rowsOf sessionId).take count) } sessionId
    = (archive.rowsOf sessionId).drop count
  := by
  have hfilter : rowsOf
        { archive with
          committed := committed
          buffer := deleteRows archive.buffer ((archive.rowsOf sessionId).take count) } sessionId
      = (archive.rowsOf sessionId).filter
          (fun row => !((archive.rowsOf sessionId).take count).any (sameDocument row)) := by
    simp only [rowsOf, deleteRows, List.filter_filter, Bool.and_comm]
  rw [hfilter]
  have hsplit := List.take_append_drop count (archive.rowsOf sessionId)
  have hacross := hsorted
  rw [← hsplit] at hacross
  obtain ⟨-, -, hacross⟩ := List.pairwise_append.mp hacross
  have hrest : ((archive.rowsOf sessionId).drop count).filter
        (fun row => !((archive.rowsOf sessionId).take count).any (sameDocument row))
      = (archive.rowsOf sessionId).drop count := by
    apply List.filter_eq_self.mpr
    intro row hrow
    rw [Bool.not_eq_true', List.any_eq_false]
    intro paged hpaged hsame
    simp only [sameDocument, Bool.and_eq_true, decide_eq_true_eq] at hsame
    exact absurd hsame.2.symm (ne_of_lt (hacross paged hpaged row hrow))
  have hpage : ((archive.rowsOf sessionId).take count).filter
        (fun row => !((archive.rowsOf sessionId).take count).any (sameDocument row)) = [] := by
    apply List.filter_eq_nil_iff.mpr
    intro row hrow hnot
    have hsame : ((archive.rowsOf sessionId).take count).any (sameDocument row) = true :=
      List.any_eq_true.mpr ⟨row, hrow, by simp [sameDocument]⟩
    rw [hsame] at hnot
    cases hnot
  have hboth := List.filter_append
    (p := fun row => !((archive.rowsOf sessionId).take count).any (sameDocument row))
    ((archive.rowsOf sessionId).take count) ((archive.rowsOf sessionId).drop count)
  rw [hsplit, hpage, hrest, List.nil_append] at hboth
  exact hboth

/-- The loop of a flush is a run of its steps to the end; it leaves nothing buffered and
counts every row. -/
theorem ArchiveHolds.flushFrom (hdigests : sealing.Digests)
    (hsession : Undelimited sealing.sessionId) {docs : List ArchivedDataPoint}
    {archive : MongoArchive} {after : ℤ} (flushed : ℕ)
    (h : ArchiveHolds sealing.sessionId docs ⟨archive, .fetching after⟩) :
  let result := archive.flushFrom sealing.sessionId after flushed
  (∃ steps, steps.all ArchiveAction.isFlush = true
      ∧ TransitionSystem.run (ArchiveProcess.step sealing) ⟨archive, .fetching after⟩ steps
        = some ⟨result.2, .idle⟩)
    ∧ result.2.rowsOf sealing.sessionId = []
    ∧ result.1 = flushed + (archive.rowsOf sealing.sessionId).length
  := by
  intro result
  have hpage := h.fetchPage_eq h.point.2
  induction after, flushed, archive using
      MongoArchive.flushFrom.induct sealing.sessionId with
  | case1 after flushed archive page hlast =>
      have hnil : archive.fetchPage sealing.sessionId after = [] :=
        List.getLast?_eq_none_iff.mp hlast
      have hrows : archive.rowsOf sealing.sessionId = [] := by
        rw [hnil] at hpage
        simpa [pageSize] using hpage.symm
      have hresult : result = (flushed, archive) := by
        simp only [result]
        rw [MongoArchive.flushFrom]
        split
        · rfl
        · rename_i last hsome
          rw [hnil] at hsome
          cases hsome
      rw [hresult]
      refine ⟨⟨[.fetch], rfl, ?_⟩, hrows, by simp [hrows]⟩
      apply TransitionSystem.run_cons_eq_some.mpr
      refine ⟨_, ?_, rfl⟩
      simp only [ArchiveProcess.step, hnil]
      rfl
  | case2 after flushed archive page last hlast ih =>
      have hne : archive.fetchPage sealing.sessionId after ≠ [] := by
        intro hnil
        simp only [page, hnil] at hlast
        cases hlast
      let next : MongoArchive :=
        { archive with
          committed := (page.map BufferRow.entry).foldl (upsertRow sealing.sessionId)
            archive.committed
          buffer := deleteRows archive.buffer page }
      -- One page: fetched, written, deleted, passed.
      let steps : List ArchiveAction :=
        .fetch :: (page.map (fun _ => .write) ++ (page.map .delete ++ [.deleted]))
      have hsteps : steps.all ArchiveAction.isFlush = true := by
        simp [steps, ArchiveAction.isFlush]
      have hrun : TransitionSystem.run (ArchiveProcess.step sealing)
          ⟨archive, .fetching after⟩ steps = some ⟨next, .fetching last.sequence⟩ := by
        apply TransitionSystem.run_cons_eq_some.mpr
        refine ⟨⟨archive, .flushing page page⟩, ?_, ?_⟩
        · have hfull : (archive.fetchPage sealing.sessionId after).isEmpty = false := by
            simpa using hne
          simp only [ArchiveProcess.step, hfull]
          rfl
        · apply TransitionSystem.run_append_eq_some.mpr
          refine ⟨_, run_writes archive page page, ?_⟩
          apply TransitionSystem.run_append_eq_some.mpr
          refine ⟨_, run_deletes _ (fun _ hrow => hrow), ?_⟩
          apply TransitionSystem.run_cons_eq_some.mpr
          refine ⟨⟨next, .fetching last.sequence⟩, ?_, rfl⟩
          have hgone : (deleteRows archive.buffer page).all
              (fun row => !page.any (sameDocument row)) = true := by
            apply List.all_eq_true.mpr
            intro row hrow
            exact (List.mem_filter.mp hrow).2
          simp only [ArchiveProcess.step, hgone, if_true, hlast]
          rfl
      have hnext := h.run_flush hdigests hsession hsteps hrun
      have hrows : next.rowsOf sealing.sessionId
          = (archive.rowsOf sealing.sessionId).drop pageSize := by
        simp only [next, page, hpage]
        exact rowsOf_deleteRows h.sorted
      obtain ⟨⟨later, hlater, hlaterRun⟩, hempty, hcount⟩ :=
        ih hnext (hnext.fetchPage_eq hnext.point.2)
      have hresult : result = next.flushFrom sealing.sessionId last.sequence
          (flushed + page.length) := by
        simp only [result]
        rw [MongoArchive.flushFrom]
        split
        · rename_i hnone
          rw [hlast] at hnone
          cases hnone
        · rename_i last' hlast'
          rw [hlast] at hlast'
          cases hlast'
          rfl
      rw [hresult]
      refine ⟨⟨steps ++ later, ?_, ?_⟩, hempty, ?_⟩
      · rw [List.all_append, hsteps, hlater]
        rfl
      · exact TransitionSystem.run_append_eq_some.mpr ⟨_, hrun, hlaterRun⟩
      · rw [hcount, hrows]
        simp only [page, hpage]
        rw [Nat.add_assoc, ← List.length_append, List.take_append_drop]

end Flush

/-! ### The in-memory archive on the same entries -/

/-- An entry down to the resolution of a stored date. -/
def ArchivedDataPoint.truncated (entry : ArchivedDataPoint) : ArchivedDataPoint :=
  { entry with
    firstRetrieved := toStoredResolution entry.firstRetrieved
    lastRetrieved := toStoredResolution entry.lastRetrieved }

theorem stored_eq_truncated (sealing : Sealing) (entry : ArchivedDataPoint) :
  stored sealing entry = (sealing.sealer entry).truncated
  := by
  simp only [stored, ArchivedDataPoint.truncated, Sealing.sealer, Sealing.sealEntry_eq]

/-- The later of two times is the later one at any resolution. -/
theorem toStoredResolution_max (s t : Timestamp) :
  toStoredResolution (max s t) = max (toStoredResolution s) (toStoredResolution t)
  := by
  have hmono : Monotone toStoredResolution := by
    intro (s : ℤ) (t : ℤ) (hle : s ≤ t)
    have hfloor : s - s % 1000 ≤ t - t % 1000 := by omega
    exact hfloor
  exact hmono.map_max

/-- Truncating the observations truncates what they make together. -/
theorem putAll_truncated (entries : List ArchivedDataPoint) :
  ArchiveState.upsert.putAll [] (entries.map ArchivedDataPoint.truncated)
    = (ArchiveState.upsert.putAll [] entries).map ArchivedDataPoint.truncated
  := by
  symm
  apply Upsert.map_putAll
  · intro entry
    rfl
  · intro existing entry
    simp only [ArchiveState.upsert, ArchivedDataPoint.truncated, toStoredResolution_max]

/-- Unsealing and truncating touch different fields. -/
theorem unsealEntry_truncated (sealing : Sealing) (entry : ArchivedDataPoint) :
  sealing.unsealEntry entry.truncated = (sealing.unsealEntry entry).truncated
  := by
  rw [Sealing.unsealEntry_eq, Sealing.unsealEntry_eq]
  rfl

theorem sortKey_unsealEntry (sealing : Sealing) (entry : ArchivedDataPoint) :
  (sealing.unsealEntry entry).sortKey = entry.sortKey
  := by
  rw [Sealing.unsealEntry_eq]
  rfl

/-- The in-memory archive given the same action: a flush happens at once, and a batch that
is refused for want of a cipher is not given to it. -/
def inMemory (sealing : Sealing) (memory : ArchiveState) : ArchiveAction → ArchiveState
  | .archive available entries =>
    if !available && entries.any ArchivedDataPoint.isPii then
      memory
    else
      (memory.archiveMany sealing.sealer entries).2
  | .start => memory.flush.2
  | _ => memory

/-- A batch is one writer's entries: they have one epoch. -/
def ArchiveAction.OneWriter : ArchiveAction → Prop
  | .archive _ entries => ∀ entry ∈ entries, ∀ other ∈ entries, entry.epoch = other.epoch
  | _ => True

namespace MongoArchive

/-- The highest epoch a session was written with. -/
def highestEpoch (archive : MongoArchive) (sessionId : SessionId) : Epoch :=
  match archive.metas.get? sessionId with
  | none => 0
  | some counters => counters.maxEpoch

end MongoArchive

section Epochs

variable {archive : MongoArchive} {sessionId : SessionId} {epoch : Epoch}

/-- An epoch that is not below the highest is given numbers, and becomes the highest. -/
theorem allocate_of_le (h : archive.highestEpoch sessionId ≤ epoch) (count : ℕ) :
  ∃ last next sequence, archive.allocate sessionId epoch count = some (last, next)
    ∧ next.metas = archive.metas.set sessionId ⟨sequence, epoch⟩
  := by
  rw [allocate]
  cases hmeta : archive.metas.get? sessionId with
  | none => exact ⟨_, _, _, rfl, rfl⟩
  | some counters =>
      have hle : counters.maxEpoch ≤ epoch := by
        rw [highestEpoch, hmeta] at h
        exact h
      simp only [hle, if_true, max_eq_right hle]
      exact ⟨_, _, _, rfl, rfl⟩

/-- An epoch below the highest is given none. -/
theorem allocate_of_lt (h : epoch < archive.highestEpoch sessionId) (count : ℕ) :
  archive.allocate sessionId epoch count = none
  := by
  rw [highestEpoch] at h
  rw [allocate]
  cases hmeta : archive.metas.get? sessionId with
  | none =>
      rw [hmeta] at h
      exact absurd h (Nat.not_lt_zero epoch)
  | some counters =>
      rw [hmeta] at h
      simp only [Nat.not_le.mpr h, if_false]

end Epochs

/-- The in-memory archive holds the given entries, sealed, and accepts the same epochs. -/
structure InMemory (sealing : Sealing) (archive : MongoArchive)
    (accepted : List ArchivedDataPoint) (memory : ArchiveState) : Prop where
  keyed : ArchiveState.Keyed memory.folded
  values : memory.folded.values
    = ArchiveState.upsert.putAll [] (accepted.map sealing.sealer)
  maxEpoch : memory.maxEpoch = archive.highestEpoch sealing.sessionId

namespace InMemory

variable {sealing : Sealing} {archive : MongoArchive} {accepted : List ArchivedDataPoint}
variable {memory : ArchiveState}

/-- Both archives accept a batch, or neither. -/
theorem archiveMany (h : InMemory sealing archive accepted memory) (available : Bool)
    {entries : List ArchivedDataPoint}
    (hwriter : ArchiveAction.OneWriter (.archive available entries)) :
  let result := archive.archiveMany sealing available entries
  let memory' := inMemory sealing memory (.archive available entries)
  (result.1 = .ok () ∧ InMemory sealing result.2 (accepted ++ entries) memory')
    ∨ ((∃ error, result.1 = .error error) ∧ InMemory sealing result.2 accepted memory')
  := by
  cases entries with
  | nil =>
      left
      refine ⟨rfl, ?_⟩
      simp only [inMemory, List.any_nil, Bool.and_false, List.append_nil]
      exact h
  | cons first rest =>
      intro result memory'
      have hepochs : ∀ entry ∈ first :: rest, entry.epoch = first.epoch :=
        fun entry hentry => hwriter entry hentry first List.mem_cons_self
      cases hfind : (first :: rest).find? (fun entry => !available && entry.isPii) with
      | some entry =>
          have hrefused : (!available && (first :: rest).any ArchivedDataPoint.isPii) = true := by
            have hentry := List.find?_some hfind
            rw [Bool.and_eq_true] at hentry ⊢
            exact ⟨hentry.1, List.any_eq_true.mpr ⟨entry, List.mem_of_find?_eq_some hfind, hentry.2⟩⟩
          right
          have hresult : ∃ error, result = (.error error, archive) := by
            simp only [result, MongoArchive.archiveMany, hfind]
            exact ⟨_, rfl⟩
          obtain ⟨error, herror⟩ := hresult
          have hmemory : memory' = memory := by
            simp only [memory', inMemory, hrefused, if_true]
          rw [herror, hmemory]
          exact ⟨⟨error, rfl⟩, h⟩
      | none =>
          have hserved : (!available && (first :: rest).any ArchivedDataPoint.isPii) = false := by
            rw [Bool.and_eq_false_iff]
            by_cases havailable : available = true
            · simp [havailable]
            · right
              apply List.any_eq_false.mpr
              intro entry hentry
              have hnot := List.find?_eq_none.mp hfind entry hentry
              simpa [havailable] using hnot
          have hmemory : memory' = (memory.archiveMany sealing.sealer (first :: rest)).2 := by
            simp only [memory', inMemory, hserved]
            rfl
          rcases Nat.lt_or_ge first.epoch (archive.highestEpoch sealing.sessionId) with hlt | hle
          · right
            have hresult : ∃ error, result = (.error error, archive) := by
              simp only [result, MongoArchive.archiveMany, hfind, allocate_of_lt hlt]
              exact ⟨_, rfl⟩
            obtain ⟨error, herror⟩ := hresult
            rw [← h.maxEpoch] at hlt
            rw [herror, hmemory, ArchiveState.archiveMany_of_lt hlt hepochs]
            exact ⟨⟨error, rfl⟩, h⟩
          · left
            obtain ⟨last, next, sequence, hallocate, hmetas⟩ :=
              allocate_of_le hle (first :: rest).length
            rw [← h.maxEpoch] at hle
            have haccepted := @ArchiveState.archiveMany_of_le sealing.sealer memory _ _
              (List.cons_ne_nil first rest) hepochs hle
            obtain ⟨hvalues, hkeyed⟩ := ArchiveState.values_folded_archiveMany h.keyed haccepted
            have hresult : result.1 = .ok () ∧ result.2.metas = next.metas := by
              constructor
              · simp only [result, MongoArchive.archiveMany, hfind, hallocate]
              · simp only [result, MongoArchive.archiveMany, hfind, hallocate]
            refine ⟨hresult.1, ?_⟩
            rw [hmemory, haccepted]
            constructor
            · exact hkeyed
            · rw [hvalues, h.values, List.map_append, Upsert.putAll_append]
            · simp only [highestEpoch, hresult.2, hmetas, Dict.get?_set_self]

/-- No other action changes what the in-memory archive holds. -/
theorem other (h : InMemory sealing archive accepted memory) {next : MongoArchive}
    (hmetas : next.metas = archive.metas) {action : ArchiveAction}
    (haction : action.isFlush = true) :
  InMemory sealing next accepted (inMemory sealing memory action)
  := by
  have hepoch : next.highestEpoch sealing.sessionId
      = archive.highestEpoch sealing.sessionId := by
    rw [highestEpoch, highestEpoch, hmetas]
  cases action with
  | archive available entries => cases haction
  | start => exact ⟨h.keyed, h.values, h.maxEpoch.trans hepoch.symm⟩
  | _ => exact ⟨h.keyed, h.values, h.maxEpoch.trans hepoch.symm⟩

end InMemory

/-- The steps of a flush leave the counters as they are. -/
theorem ArchiveProcess.metas_step {sealing : Sealing} {process next : ArchiveProcess}
    {action : ArchiveAction} (haction : action.isFlush = true)
    (hstep : process.step sealing action = some next) :
  next.archive.metas = process.archive.metas
  := by
  cases action with
  | archive available entries => cases haction
  | start =>
      simp only [ArchiveProcess.step] at hstep
      split at hstep
      · cases hstep
        rfl
      · cases hstep
  | fetch =>
      simp only [ArchiveProcess.step] at hstep
      split at hstep
      · split at hstep
        · cases hstep
          rfl
        · cases hstep
          rfl
      · cases hstep
  | write =>
      simp only [ArchiveProcess.step] at hstep
      split at hstep
      · cases hstep
        rfl
      · cases hstep
  | delete row =>
      simp only [ArchiveProcess.step] at hstep
      split at hstep
      · split at hstep
        · cases hstep
          rfl
        · cases hstep
      · cases hstep
  | deleted =>
      simp only [ArchiveProcess.step] at hstep
      split at hstep
      · split at hstep
        · obtain ⟨last, -, rfl⟩ := Option.map_eq_some_iff.mp hstep
          rfl
        · cases hstep
      · cases hstep
  | die =>
      cases hstep
      rfl

/-! ### Every run -/

/-- Nothing of a session is in the collections yet, whatever other sessions have there. -/
structure Untouched (sessionId : SessionId) (archive : MongoArchive) : Prop where
  keyed : RowsKeyed archive.committed
  committed : ∀ id row, archive.committed.get? id = some row → row.sessionId ≠ sessionId
  buffer : archive.rowsOf sessionId = []
  metas : archive.metas.get? sessionId = none

/-- The collections without the session hold none of its observations. -/
theorem Untouched.holds {sessionId : SessionId} {archive : MongoArchive}
    (hsession : Undelimited sessionId) (h : Untouched sessionId archive) :
  ArchiveHolds sessionId [] ⟨archive, .idle⟩
  := by
  have hnone : ∀ row, row ∉ archive.rowsOf sessionId := by
    rw [h.buffer]
    exact fun _ => List.not_mem_nil
  constructor
  · exact h.keyed
  · intro row hrow
    exact absurd hrow (hnone row)
  · simp only [h.buffer]
    exact .nil
  · intro row hrow
    exact absurd hrow (hnone row)
  · intro entry hentry
    cases hentry
  · intro key hkey
    have hheld : held sessionId archive.committed key = none := by
      rw [held, Option.map_eq_none_iff]
      cases hget : archive.committed.get? (documentId sessionId key) with
      | none => rfl
      | some row =>
          have hrow := h.keyed _ row hget
          have hsame := documentId_inj hsession hrow.session hkey hrow.hash hrow.id_eq
          exact absurd hsame.1.symm (h.committed _ row hget)
    simp only [hheld, bufferedEntries, h.buffer]
    rfl
  · trivial

/-- After a run of the archive of a session, flushes are not seen by a reader. -/
structure FlushTransparent (sealing : Sealing) (actions : List ArchiveAction)
    (process : ArchiveProcess) : Prop where
  /-- A read returns the same before a flush, between any two of its steps and after it,
  also if it dies on the way and another follows. -/
  read_eq : ∀ steps next, steps.all ArchiveAction.isFlush = true →
    TransitionSystem.run (ArchiveProcess.step sealing) process steps = some next →
      ∀ available, next.archive.read sealing available = process.archive.read sealing available
  /-- A flush that is not interrupted is a run of these steps, leaves nothing buffered and
  returns how many rows there were. -/
  flush : process.point = .idle →
    let flushed := process.archive.flush sealing.sessionId
    (∃ steps, steps.all ArchiveAction.isFlush = true
        ∧ TransitionSystem.run (ArchiveProcess.step sealing) process steps
          = some ⟨flushed.2, .idle⟩)
      ∧ flushed.2.bufferedCount sealing.sessionId = 0
      ∧ flushed.1 = process.archive.bufferedCount sealing.sessionId
  /-- Whatever follows, a read returns one entry for each key, and the observations of a
  batch that was accepted are in those of their keys. -/
  kept : ∀ available entries later next,
    (process.archive.archiveMany sealing available entries).1 = .ok () →
    TransitionSystem.run (ArchiveProcess.step sealing) process
        (.archive available entries :: later) = some next →
      ∃ reads, next.archive.read sealing true = .ok reads
        ∧ (reads.map ArchivedDataPoint.key).Nodup
        ∧ ∀ entry ∈ entries, ∃ row ∈ reads, row.key = (sealing.sealer entry).key
          ∧ toStoredResolution entry.lastRetrieved ≤ row.lastRetrieved
  /-- A read returns what the in-memory archive returns of the same batches, its times
  truncated, in the order of the sort. -/
  inMemory : (∀ action ∈ actions, action.OneWriter) →
    ∀ now, process.archive.read sealing true
      = .ok (Paging.inOrder ArchivedDataPoint.sortKey
          (((actions.foldl (inMemory sealing) .initial).read sealing.unsealEntry none now).map
            ArchivedDataPoint.truncated))

section Runs

variable {sealing : Sealing}

/-- A read returns one entry for each key. -/
theorem nodup_readOf (sealing : Sealing) (docs : List ArchivedDataPoint) :
  (((Paging.inOrder ArchivedDataPoint.sortKey
      (ArchiveState.upsert.putAll [] docs)).map sealing.unsealEntry).map
    ArchivedDataPoint.key).Nodup
  := by
  have hkeys : ArchivedDataPoint.key ∘ sealing.unsealEntry = ArchiveState.upsert.key := by
    funext entry
    simp only [Function.comp_apply, sealing.unsealEntry_eq]
    rfl
  rw [List.map_map, hkeys]
  exact ((Paging.perm_inOrder _ _).map _).nodup_iff.mpr (nodup_putAll_nil docs)

/-- An observation is in the row of its key. -/
theorem mem_readOf {docs : List ArchivedDataPoint} {doc : ArchivedDataPoint}
    (h : doc ∈ docs) :
  ∃ row ∈ (Paging.inOrder ArchivedDataPoint.sortKey
      (ArchiveState.upsert.putAll [] docs)).map sealing.unsealEntry,
    row.key = doc.key ∧ doc.lastRetrieved ≤ row.lastRetrieved
  := by
  have hmem : doc ∈ docs.filter
      (fun entry => ArchiveState.upsert.key entry = ArchiveState.upsert.key doc) :=
    List.mem_filter.mpr ⟨h, decide_eq_true rfl⟩
  obtain ⟨row, hrow, hjoin⟩ := ArchiveState.upsert_lawful.exists_absorbAll hmem none
  have hfound := ArchiveState.upsert.row_putAll (ArchiveState.upsert.key doc) [] docs
  rw [Upsert.row_nil, hrow] at hfound
  have hkey : row.key = doc.key := ArchiveState.upsert.key_of_row hfound
  use sealing.unsealEntry row
  constructor
  · apply List.mem_map_of_mem
    exact (Paging.mem_inOrder _).mpr (ArchiveState.upsert.mem_of_row hfound)
  · rw [sealing.unsealEntry_eq]
    constructor
    · exact hkey
    · have hlast := congrArg ArchivedDataPoint.lastRetrieved hjoin
      simp only [ArchiveState.upsert] at hlast
      exact max_eq_left_iff.mp hlast

/-- An action keeps the entries accepted so far in both archives. -/
theorem inMemory_step (hdigests : sealing.Digests) (hsession : Undelimited sealing.sessionId)
    {accepted : List ArchivedDataPoint} {memory : ArchiveState}
    {process next : ArchiveProcess} {action : ArchiveAction} (hwriter : action.OneWriter)
    (hholds : ArchiveHolds sealing.sessionId (accepted.map (stored sealing)) process)
    (hmemory : InMemory sealing process.archive accepted memory)
    (hstep : process.step sealing action = some next) :
  ∃ accepted', ArchiveHolds sealing.sessionId (accepted'.map (stored sealing)) next
    ∧ InMemory sealing next.archive accepted' (inMemory sealing memory action)
  := by
  cases haction : action.isFlush with
  | true =>
      use accepted
      constructor
      · apply hholds.run_flush hdigests hsession _ (TransitionSystem.run_cons_eq_some.mpr
          ⟨next, hstep, TransitionSystem.run_nil next⟩)
        rw [List.all_cons, haction]
        rfl
      · exact hmemory.other (ArchiveProcess.metas_step haction hstep) haction
  | false =>
      cases action with
      | archive available entries =>
          cases hstep
          have hboth := hmemory.archiveMany available hwriter
          rcases archiveMany_cases sealing available process.archive entries with
            ⟨archive, harchive, hbuffers⟩ | ⟨error, herror⟩
          · rw [harchive] at hboth
            simp only [harchive]
            rcases hboth with ⟨-, hboth⟩ | ⟨⟨error, herror⟩, -⟩
            · refine ⟨accepted ++ entries, ?_, hboth⟩
              rw [List.map_append]
              exact hholds.buffer hdigests hbuffers
            · cases herror
          · rw [herror] at hboth
            simp only [herror]
            rcases hboth with ⟨hok, -⟩ | ⟨-, hboth⟩
            · cases hok
            · exact ⟨accepted, hholds, hboth⟩
      | _ => cases haction

/-- The entries accepted in a run are in both archives. -/
theorem inMemory_run (hdigests : sealing.Digests) (hsession : Undelimited sealing.sessionId)
    {accepted : List ArchivedDataPoint} {memory : ArchiveState}
    {process next : ArchiveProcess} {actions : List ArchiveAction}
    (hwriters : ∀ action ∈ actions, action.OneWriter)
    (hholds : ArchiveHolds sealing.sessionId (accepted.map (stored sealing)) process)
    (hmemory : InMemory sealing process.archive accepted memory)
    (hrun : TransitionSystem.run (ArchiveProcess.step sealing) process actions = some next) :
  ∃ accepted', ArchiveHolds sealing.sessionId (accepted'.map (stored sealing)) next
    ∧ InMemory sealing next.archive accepted' (actions.foldl (inMemory sealing) memory)
  := by
  induction actions generalizing process accepted memory with
  | nil =>
      cases hrun
      exact ⟨accepted, hholds, hmemory⟩
  | cons action actions ih =>
      obtain ⟨middle, hstep, hrun⟩ := TransitionSystem.run_cons_eq_some.mp hrun
      obtain ⟨accepted', hholds', hmemory'⟩ := inMemory_step hdigests hsession
        (hwriters action List.mem_cons_self) hholds hmemory hstep
      apply ih _ hholds' hmemory' hrun
      intro other hother
      exact hwriters other (List.mem_cons_of_mem action hother)

/-- Of entries that both archives hold, a read returns the same, up to order and the
resolution of a stored date. -/
theorem InMemory.readOf_eq {archive : MongoArchive} {accepted : List ArchivedDataPoint}
    {memory : ArchiveState} (h : InMemory sealing archive accepted memory) (now : Timestamp) :
  readOf sealing true (accepted.map (stored sealing))
    = .ok (Paging.inOrder ArchivedDataPoint.sortKey
        ((memory.read sealing.unsealEntry none now).map ArchivedDataPoint.truncated))
  := by
  have hlive : memory.folded.values.filter (ArchiveState.live none now)
      = memory.folded.values :=
    List.filter_eq_self.mpr (fun _ _ => rfl)
  have hstored : accepted.map (stored sealing)
      = (accepted.map sealing.sealer).map ArchivedDataPoint.truncated := by
    rw [List.map_map]
    apply List.map_congr_left
    intro entry _
    exact stored_eq_truncated sealing entry
  have hcommute : ((ArchiveState.upsert.putAll [] (accepted.map sealing.sealer)).map
        ArchivedDataPoint.truncated).map sealing.unsealEntry
      = ((ArchiveState.upsert.putAll [] (accepted.map sealing.sealer)).map
        sealing.unsealEntry).map ArchivedDataPoint.truncated := by
    rw [List.map_map, List.map_map]
    apply List.map_congr_left
    intro entry _
    exact unsealEntry_truncated sealing entry
  have hserved : (!true && (Paging.inOrder ArchivedDataPoint.sortKey
      (ArchiveState.upsert.putAll [] (accepted.map (stored sealing)))).any
        ArchivedDataPoint.isPii) = false := rfl
  rw [readOf, if_neg (Bool.eq_false_iff.mp hserved), ArchiveState.read, hlive, h.values, hstored,
    putAll_truncated, ← hcommute]
  congr 1
  exact Paging.map_inOrder ArchivedDataPoint.sortKey (sortKey_unsealEntry sealing) _

/-- For every run of the archive of a session, with flushes that die at any points and are
run again, a read returns what a flush and then a read would. -/
theorem flush_transparent (sealing : Sealing) (hdigests : sealing.Digests)
    (hsession : Undelimited sealing.sessionId) {start : MongoArchive}
    (hstart : Untouched sealing.sessionId start) {actions : List ArchiveAction}
    {process : ArchiveProcess}
    (hrun : TransitionSystem.run (ArchiveProcess.step sealing) ⟨start, .idle⟩ actions
      = some process) :
  FlushTransparent sealing actions process
  := by
  obtain ⟨docs, hholds⟩ := (hstart.holds hsession).run hdigests hsession hrun
  rw [List.nil_append] at hholds
  constructor
  · intro steps next hsteps hnext available
    rw [(hholds.run_flush hdigests hsession hsteps hnext).read_eq hsession,
      hholds.read_eq hsession]
  · intro hidle
    obtain ⟨archive, point⟩ := process
    simp only at hidle
    subst hidle
    obtain ⟨⟨steps, hsteps, hflush⟩, hempty, hcount⟩ :=
      hholds.start.flushFrom hdigests hsession 0
    refine ⟨⟨.start :: steps, hsteps, ?_⟩, ?_, ?_⟩
    · exact TransitionSystem.run_cons_eq_some.mpr ⟨_, rfl, hflush⟩
    · rw [MongoArchive.flush, bufferedCount, hempty]
      rfl
    · rw [MongoArchive.flush, hcount, Nat.zero_add]
      rfl
  · intro available entries later next hok hlater
    obtain ⟨middle, hstep, hlater⟩ := TransitionSystem.run_cons_eq_some.mp hlater
    have hmiddle : ArchiveHolds sealing.sessionId (docs ++ entries.map (stored sealing)) middle := by
      cases hstep
      rcases archiveMany_cases sealing available process.archive entries with
        ⟨archive, harchive, hbuffers⟩ | ⟨error, herror⟩
      · simp only [harchive]
        exact hholds.buffer hdigests hbuffers
      · rw [herror] at hok
        cases hok
    obtain ⟨more, hnext⟩ := hmiddle.run hdigests hsession hlater
    refine ⟨_, hnext.read_eq hsession true, ?_, ?_⟩
    · exact nodup_readOf _ _
    · intro entry hentry
      have hmem : stored sealing entry ∈ docs ++ entries.map (stored sealing) ++ more := by
        apply List.mem_append_left
        apply List.mem_append_right
        exact List.mem_map_of_mem hentry
      exact mem_readOf hmem
  · intro hwriters now
    have hnothing : InMemory sealing start [] .initial := by
      constructor
      · intro key entry hget
        cases hget
      · rfl
      · rw [highestEpoch, hstart.metas]
        rfl
    obtain ⟨accepted, haccepted, hmemory⟩ := @inMemory_run sealing hdigests hsession []
      .initial _ _ _ hwriters (hstart.holds hsession) hnothing hrun
    rw [haccepted.read_eq hsession]
    exact hmemory.readOf_eq now

end Runs

/-! ### A flush that dies -/

/-- A text without its NULs, as a digest. -/
def withoutNul (text : String) : String :=
  String.ofList (text.toList.filter (fun c => c ≠ '\x00'))

theorem undelimited_withoutNul (text : String) :
  Undelimited (withoutNul text)
  := by
  rw [Undelimited, withoutNul, String.toList_ofList]
  intro hmem
  simpa using (List.mem_filter.mp hmem).2

/-- A sealing that keeps texts as they are. -/
def plainSealing : Sealing where
  sessionId := "s"
  literals := ⟨fun _ => "", fun _ => true⟩
  cipher :=
    { encrypt := fun plaintext => plaintext
      decrypt := fun ciphertext => ciphertext
      mac := withoutNul }
  sha256 := withoutNul
  dumps := fun _ => ""
  loads := .str

/-- A note observed at a time. -/
def noteEntry (retrieved : Timestamp) : ArchivedDataPoint where
  type := "note"
  valueHash := ""
  value := .str "a"
  retrievedBy := "collector"
  firstRetrieved := retrieved
  lastRetrieved := retrieved
  isPii := false
  epoch := 1

/-- A note is archived and committed; the flush dies before it deletes it, the note is
archived again, and another flush starts. -/
def noteActions : List ArchiveAction :=
  [.archive true [noteEntry 1500], .start, .fetch, .write, .die,
    .archive true [noteEntry 2500], .start]

theorem flush_transparent_notes :
  ∃ process,
    TransitionSystem.run (ArchiveProcess.step plainSealing) ⟨⟨[], .empty, .empty⟩, .idle⟩
        noteActions = some process
      ∧ FlushTransparent plainSealing noteActions process
  := by
  have hsession : Undelimited plainSealing.sessionId := by
    unfold Undelimited plainSealing
    decide
  have hstart : Untouched plainSealing.sessionId ⟨[], .empty, .empty⟩ := by
    constructor
    · intro id row hget
      cases hget
    · intro id row hget
      cases hget
    · rfl
    · rfl
  exact ⟨_, rfl, flush_transparent plainSealing
    ⟨undelimited_withoutNul, undelimited_withoutNul⟩ hsession hstart rfl⟩

end Orcastork
