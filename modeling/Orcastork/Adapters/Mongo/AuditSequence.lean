import Orcastork.Adapters.Mongo.AuditSink
import Orcastork.Library.Delimited
import Orcastork.Library.FencedRanges
import Orcastork.Library.Readable

/-!
# The trail the Mongo audit sink keeps

The counters of a session grant ranges behind a fence, so what the calls on the sink were granted
is always what the counters have issued (`Consistent.issued`). A document is inserted under a
number of the range of its call, which no other document has; so no insert collides, and the
documents of the sink are those its calls have inserted. `replay` reads the ones of a session in
the order of their numbers, whatever numbers are left out by calls that have crashed.
-/

namespace Orcastork

namespace MongoAudit

open FencedRanges

/-! ### The key of a document -/

theorem AuditRow.toList_id (row : AuditRow) :
  row.id.toList = row.sessionId.toList ++ '\x00' :: (toString row.sequence).toList
  := by
  rw [AuditRow.id, String.toList_append, String.toList_append]
  simp only [List.append_assoc]
  rfl

theorem nul_not_mem_natText (n : ℕ) :
  '\x00' ∉ (toString n).toList
  := by
  intro h
  rw [Nat.toString_eq_repr, Nat.toList_repr] at h
  have hdigit : ('\x00' : Char).isDigit = true :=
    Nat.isDigit_of_mem_toDigits (by decide) (by decide) h
  cases hdigit

/-- The key of a document determines its session and its number, whatever the session is
called. -/
theorem AuditRow.id_inj {row row' : AuditRow} :
  row.id = row'.id ↔ row.sessionId = row'.sessionId ∧ row.sequence = row'.sequence
  := by
  constructor
  · intro h
    have hlist := congrArg String.toList h
    rw [toList_id, toList_id] at hlist
    obtain ⟨hsession, hsequence⟩ := Delimited.append_cons_inj_right (nul_not_mem_natText _)
      (nul_not_mem_natText _) hlist
    use String.toList_injective hsession
    apply Readable.natText_inj.mp
    apply String.toList_injective hsequence
  · rintro ⟨hsession, hsequence⟩
    rw [AuditRow.id, AuditRow.id, hsession, hsequence]

namespace Database

variable {database database' : Database} {sessionId : SessionId} {epoch : Epoch} {count : ℕ}

/-! ### The counters of a session -/

/-- The counters of a session as a counter of ranges. -/
def counter (database : Database) (sessionId : SessionId) : Counter :=
  match database.metas.get? sessionId with
  | none => .initial
  | some counters => ⟨counters.sequence, counters.maxEpoch.getD 0⟩

theorem counter_of_none (h : database.metas.get? sessionId = none) :
  database.counter sessionId = .initial
  := by
  rw [counter, h]

theorem counter_of_some {counters : AuditMeta}
    (h : database.metas.get? sessionId = some counters) :
  database.counter sessionId = ⟨counters.sequence, counters.maxEpoch.getD 0⟩
  := by
  rw [counter, h]

/-- An epoch passes the query of the upsert when it is not below the fence. -/
theorem all_le_iff {maxEpoch : Option Epoch} :
  maxEpoch.all (· ≤ epoch) = true ↔ maxEpoch.getD 0 ≤ epoch
  := by
  cases maxEpoch with
  | none => simp
  | some maxEpoch => simp

/-- An allocation is refused where the counter refuses it. -/
theorem allocate_eq_none_iff :
  database.allocate sessionId epoch count = none
    ↔ (database.counter sessionId).allocate epoch count = none
  := by
  rw [Counter.allocate_eq_none_iff, allocate]
  cases hmeta : database.metas.get? sessionId with
  | none => simp [counter_of_none hmeta, Counter.initial]
  | some counters =>
      rw [counter_of_some hmeta]
      simp only [all_le_iff, ite_eq_right_iff, reduceCtorEq, imp_false, Nat.not_le]

/-- An allocation is the grant of the counter, and leaves everything else alone. -/
theorem allocate_eq_some {sequence : ℕ}
    (h : database.allocate sessionId epoch count = some (sequence, database')) :
  (database.counter sessionId).allocate epoch count
      = some (⟨epoch, sequence - count + 1, count⟩, database'.counter sessionId)
    ∧ (∀ other, other ≠ sessionId → database'.counter other = database.counter other)
    ∧ database'.committed = database.committed
  := by
  have hothers : ∀ counters other, other ≠ sessionId →
      counter { database with metas := database.metas.set sessionId counters } other
        = database.counter other := by
    intro counters other hne
    rw [counter, counter, Dict.get?_set_of_ne _ (Ne.symm hne)]
  have hself : ∀ counters,
      counter { database with metas := database.metas.set sessionId counters } sessionId
        = ⟨counters.sequence, counters.maxEpoch.getD 0⟩ := by
    intro counters
    apply counter_of_some
    apply Dict.get?_set_self
  rw [allocate] at h
  rw [Counter.allocate_eq_some_iff]
  cases hmeta : database.metas.get? sessionId with
  | none =>
      rw [hmeta] at h
      cases h
      rw [hself, counter_of_none hmeta]
      constructor
      · simp [Counter.initial]
      · use hothers _
  | some counters =>
      rw [hmeta] at h
      dsimp only at h
      split at h
      · rename_i hle
        cases h
        rw [all_le_iff] at hle
        have hmax : max (counters.maxEpoch.getD epoch) epoch = epoch := by
          cases hmaxEpoch : counters.maxEpoch with
          | none => apply Nat.max_self
          | some maxEpoch =>
              rw [hmaxEpoch] at hle
              apply Nat.max_eq_right hle
        rw [hself, counter_of_some hmeta, hmax]
        constructor
        · simp [hle]
        · use hothers _
      · cases h

/-! ### Inserting a document -/

theorem insert_eq_none_iff {row : AuditRow} :
  database.insert row = none ↔ row.id ∈ database.committed.keys
  := by
  rw [insert, ← Dict.get?_isSome_iff]
  cases database.committed.get? row.id with
  | none => simp
  | some other => simp

theorem insert_eq_some_iff {row : AuditRow} :
  database.insert row = some database'
    ↔ row.id ∉ database.committed.keys
      ∧ database' = { database with committed := database.committed.set row.id row }
  := by
  rw [insert, ← Dict.get?_eq_none_iff]
  cases database.committed.get? row.id with
  | none => simp [eq_comm]
  | some other => simp

end Database

/-! ### The calls of a session -/

namespace Append

variable {call call' : Append}

/-- The numbers of the range of a call, in order. -/
def range (call : Append) : List ℕ :=
  match call.firstSequence with
  | none => []
  | some firstSequence => List.range' firstSequence call.entries.length

/-- What a call was granted in a session. -/
def grants (sessionId : SessionId) (call : Append) : List Grant :=
  if call.first.sessionId = sessionId then
    (call.firstSequence.map
      (fun firstSequence => ⟨call.first.epoch, firstSequence, call.entries.length⟩)).toList
  else
    []

theorem mem_grants {sessionId : SessionId} {grant : Grant} :
  grant ∈ call.grants sessionId
    ↔ call.first.sessionId = sessionId
      ∧ ∃ firstSequence, call.firstSequence = some firstSequence
        ∧ grant = ⟨call.first.epoch, firstSequence, call.entries.length⟩
  := by
  rw [grants]
  split
  · rename_i hsession
    simp [hsession, eq_comm]
  · rename_i hsession
    simp [hsession]

/-- The numbers of the range of a call were granted to it. -/
theorem mem_range {n : ℕ} (h : n ∈ call.range) :
  ∃ grant ∈ call.grants call.first.sessionId, n ∈ grant.numbers
  := by
  cases hfirst : call.firstSequence with
  | none =>
      rw [range, hfirst] at h
      cases h
  | some firstSequence =>
      rw [range, hfirst, List.mem_range'_1] at h
      use ⟨call.first.epoch, firstSequence, call.entries.length⟩
      constructor
      · apply mem_grants.mpr
        use rfl, firstSequence, hfirst
      · apply Grant.mem_numbers.mpr h

/-- The documents of a call, by where they stand in the batch. -/
theorem getElem?_documents {firstSequence k : ℕ} (h : call.firstSequence = some firstSequence) :
  call.documents[k]? = call.entries[k]?.map (fun entry =>
    ⟨call.first.sessionId, firstSequence + k, stored entry⟩)
  := by
  rw [documents, h]
  apply List.getElem?_mapIdx

theorem length_documents {firstSequence : ℕ} (h : call.firstSequence = some firstSequence) :
  call.documents.length = call.entries.length
  := by
  rw [documents, h]
  apply List.length_mapIdx

/-- The documents of a call are its entries as they are stored, under the numbers of its
range. -/
theorem documents_eq (call : Append) :
  call.documents.map (fun row => (row.sessionId, row.sequence, row.entry))
    = (call.range.zip (call.entries.map stored)).map (Prod.mk call.first.sessionId)
  := by
  cases hfirst : call.firstSequence with
  | none =>
      rw [documents, range, hfirst]
      rfl
  | some firstSequence =>
      ext1 k
      rw [List.getElem?_map, getElem?_documents hfirst, range, hfirst, List.getElem?_map]
      simp only [List.zip, List.getElem?_zipWith, List.getElem?_map]
      cases hentry : call.entries[k]? with
      | none => simp
      | some entry =>
          obtain ⟨hlt, -⟩ := List.getElem?_eq_some_iff.mp hentry
          simp [hlt]

/-- A document of a call has its session, and a number of its range. -/
theorem mem_documents {row : AuditRow} (h : row ∈ call.documents) :
  row.sessionId = call.first.sessionId ∧ row.sequence ∈ call.range
  := by
  cases hfirst : call.firstSequence with
  | none =>
      rw [documents, hfirst] at h
      cases h
  | some firstSequence =>
      obtain ⟨k, hk⟩ := List.mem_iff_getElem?.mp h
      rw [getElem?_documents hfirst, Option.map_eq_some_iff] at hk
      obtain ⟨entry, hentry, rfl⟩ := hk
      obtain ⟨hlt, -⟩ := List.getElem?_eq_some_iff.mp hentry
      use rfl
      rw [range, hfirst, List.mem_range'_1]
      dsimp only
      omega

/-- The next document of a call has a higher number than those it has inserted. -/
theorem sequence_lt {row next : AuditRow} (h : row ∈ call.rows)
    (hnext : call.documents[call.inserted]? = some next) :
  row.sequence < next.sequence
  := by
  cases hfirst : call.firstSequence with
  | none =>
      rw [documents, hfirst] at hnext
      cases hnext
  | some firstSequence =>
      obtain ⟨k, hk⟩ := List.mem_iff_getElem?.mp h
      rw [rows, List.getElem?_take] at hk
      split at hk
      · rename_i hlt
        rw [getElem?_documents hfirst, Option.map_eq_some_iff] at hk hnext
        obtain ⟨_, -, rfl⟩ := hk
        obtain ⟨_, -, rfl⟩ := hnext
        apply Nat.add_lt_add_left hlt
      · cases hk

/-- What a call says of itself. -/
structure Sound (call : Append) : Prop where
  inserted_le : call.inserted ≤ call.documents.length
  returned : call.outcome = some .returned →
    call.firstSequence.isSome = true ∧ call.inserted = call.documents.length
  rejected : ∀ error, call.outcome = some (.rejected error) →
    error = call.staleEpoch ∧ call.firstSequence = none
  unique : call.outcome ≠ some .duplicateKey

/-- A call without a range has nothing. -/
theorem nothing_of_unallocated (h : call.firstSequence = none) :
  call.range = [] ∧ call.rows = []
  := by
  rw [range, rows, documents, h]
  use rfl
  apply List.take_nil

/-- A call that was granted a range and has ended has inserted its whole batch, unless it has
crashed. -/
theorem Sound.rows_eq (h : call.Sound) (hended : call.outcome ≠ none)
    (hsome : call.firstSequence.isSome = true) (hcrashed : call.outcome ≠ some .crashed) :
  call.rows = call.documents
  := by
  cases houtcome : call.outcome with
  | none => exact absurd houtcome hended
  | some outcome =>
      cases outcome with
      | returned =>
          rw [rows, (h.returned houtcome).2]
          apply List.take_length
      | rejected error =>
          rw [(h.rejected error houtcome).2] at hsome
          cases hsome
      | duplicateKey => exact absurd houtcome h.unique
      | crashed => exact absurd houtcome hcrashed

theorem sound_begun (first : SessionAuditEntry) (rest : List SessionAuditEntry) :
  (begun first rest).Sound
  := by
  constructor
  · apply Nat.le_refl
  · nofun
  · nofun
  · nofun

end Append

/-! ### What holds of the sink -/

/-- What holds of the sink and the calls on it. -/
structure Consistent (s : State) : Prop where
  sound : ∀ call ∈ s.points, call.Sound
  /-- The counters have issued what the calls were granted. -/
  issued : ∀ sessionId,
    Issued (s.shared.counter sessionId) (s.points.flatMap (Append.grants sessionId))
  /-- The documents are those the calls have inserted. -/
  written : s.shared.committed.values.Perm (s.points.flatMap Append.rows)
  keyed : s.shared.committed.keys = s.shared.committed.values.map AuditRow.id

theorem consistent_initial :
  Consistent initial
  := by
  constructor
  · nofun
  · intro sessionId
    apply issued_initial
  · apply List.Perm.refl
  · rfl

namespace Consistent

variable {s : State} {i j : ℕ} {call call' other : Append} {database' : Database}

/-- Two calls of a session were granted disjoint ranges. -/
theorem disjoint_range (h : Consistent s) (hij : i ≠ j) (hi : s.points[i]? = some call)
    (hj : s.points[j]? = some other) (hsession : call.first.sessionId = other.first.sessionId) :
  call.range.Disjoint other.range
  := by
  intro n hn hn'
  obtain ⟨grant, hgrant, hnumber⟩ := Append.mem_range hn
  obtain ⟨grant', hgrant', hnumber'⟩ := Append.mem_range hn'
  rw [← hsession] at hgrant'
  have hdisjoint : Disjoint grant.numbers grant'.numbers := by
    apply Threads.of_pairwise_flatMap (R := fun g g' : Grant => Disjoint g.numbers g'.numbers) _
      (h.issued call.first.sessionId).disjoint hij hi hj hgrant hgrant'
    intro g g' hdisjoint
    apply hdisjoint.symm
  apply Finset.disjoint_left.mp hdisjoint hnumber hnumber'

/-- The key of the next document of a call is not taken: the documents before it in the range
have lower numbers, and those of other calls of the session are in other ranges. -/
theorem fresh (h : Consistent s) (hi : s.points[i]? = some call) {row : AuditRow}
    (hrow : call.documents[call.inserted]? = some row) :
  row.id ∉ s.shared.committed.keys
  := by
  intro hmem
  rw [h.keyed, List.mem_map] at hmem
  obtain ⟨taken, htaken, hid⟩ := hmem
  rw [h.written.mem_iff, List.mem_flatMap] at htaken
  obtain ⟨other, hother, htaken⟩ := htaken
  obtain ⟨j, hj⟩ := List.mem_iff_getElem?.mp hother
  obtain ⟨hsession, hsequence⟩ := AuditRow.id_inj.mp hid
  by_cases hij : i = j
  · rw [← hij, hi, Option.some.injEq] at hj
    rw [← hj] at htaken
    apply Nat.ne_of_lt (Append.sequence_lt htaken hrow) hsequence
  · obtain ⟨hcall, hnumber⟩ := Append.mem_documents (List.mem_of_getElem? hrow)
    obtain ⟨hcall', hnumber'⟩ := Append.mem_documents (List.mem_of_mem_take htaken)
    have hsame : call.first.sessionId = other.first.sessionId := by
      rw [← hcall, ← hcall', hsession]
    rw [← hsequence] at hnumber
    apply h.disjoint_range hij hi hj hsame hnumber hnumber'

theorem start (h : Consistent s) (first : SessionAuditEntry) (rest : List SessionAuditEntry) :
  Consistent (s.start (.begun first rest))
  := by
  constructor
  · intro call hcall
    obtain hcall | hcall := List.mem_append.mp hcall
    · apply h.sound call hcall
    · rw [List.mem_singleton.mp hcall]
      apply Append.sound_begun
  · intro sessionId
    rw [Threads.start, Threads.flatMap_start]
    · apply h.issued
    · rw [Append.grants]
      apply ite_self
  · rw [Threads.start, Threads.flatMap_start]
    · apply h.written
    · rfl
  · apply h.keyed

theorem sound_set (h : Consistent s) (hsound : call'.Sound) :
  ∀ call ∈ s.points.set i call', call.Sound
  := by
  intro call hcall
  obtain hcall | rfl := List.mem_or_eq_of_mem_set hcall
  · apply h.sound call hcall
  · apply hsound

/-- A call may go on in any way that allocates and inserts nothing. -/
theorem ended (h : Consistent s) (hi : s.points[i]? = some call) {outcome : Outcome}
    (hsound : { call with outcome := some outcome : Append }.Sound) :
  Consistent ⟨s.shared, s.points.set i { call with outcome := some outcome }⟩
  := by
  constructor
  · apply h.sound_set hsound
  · intro sessionId
    rw [Threads.flatMap_set_of_eq hi]
    · apply h.issued
    · rfl
  · rw [Threads.flatMap_set_of_eq hi]
    · apply h.written
    · rfl
  · apply h.keyed

/-- An allocation is one grant more, and inserts nothing. -/
theorem allocated (h : Consistent s) (hi : s.points[i]? = some call)
    (hopen : call.outcome = none) (hfirst : call.firstSequence = none) {sequence : ℕ}
    (hallocate : s.shared.allocate call.first.sessionId call.first.epoch call.entries.length
      = some (sequence, database')) :
  Consistent ⟨database', s.points.set i
    { call with firstSequence := some (sequence - call.entries.length + 1) }⟩
  := by
  obtain ⟨hgrant, hothers, hcommitted⟩ := Database.allocate_eq_some hallocate
  have hnone : call.documents = [] := by
    rw [Append.documents, hfirst]
  have hinserted : call.inserted = 0 := by
    have hle := (h.sound call (List.mem_of_getElem? hi)).inserted_le
    rw [hnone] at hle
    apply Nat.eq_zero_of_le_zero hle
  have hrows : call.rows = [] := by
    rw [Append.rows, hnone, List.take_nil]
  constructor
  · apply h.sound_set
    constructor
    · rw [hinserted]
      apply Nat.zero_le
    · rw [hopen]
      nofun
    · rw [hopen]
      nofun
    · rw [hopen]
      nofun
  · intro sessionId
    by_cases hsession : call.first.sessionId = sessionId
    · rw [← hsession]
      apply Issued.perm _ (Threads.flatMap_set hi _).symm
      · exact [⟨call.first.epoch, sequence - call.entries.length + 1, call.entries.length⟩]
      · apply (h.issued call.first.sessionId).allocate hgrant
      · rw [Append.grants, Append.grants, hfirst]
        simp [Append.entries]
    · rw [hothers sessionId (Ne.symm hsession), Threads.flatMap_set_of_eq hi]
      · apply h.issued
      · rw [Append.grants, Append.grants, if_neg hsession, if_neg hsession]
  · rw [hcommitted, Threads.flatMap_set_of_eq hi]
    · apply h.written
    · rw [hrows, Append.rows, hinserted, List.take_zero]
  · rw [hcommitted]
    apply h.keyed

/-- An insert is one document more, of the call that makes it. -/
theorem inserted (h : Consistent s) (hi : s.points[i]? = some call)
    (hopen : call.outcome = none) {row : AuditRow}
    (hrow : call.documents[call.inserted]? = some row)
    (hinsert : s.shared.insert row = some database') :
  Consistent ⟨database', s.points.set i { call with inserted := call.inserted + 1 }⟩
  := by
  obtain ⟨hfresh, rfl⟩ := Database.insert_eq_some_iff.mp hinsert
  have hvalues := Dict.values_set_of_not_mem hfresh row
  constructor
  · apply h.sound_set
    constructor
    · obtain ⟨hlt, -⟩ := List.getElem?_eq_some_iff.mp hrow
      apply hlt
    · rw [hopen]
      nofun
    · rw [hopen]
      nofun
    · rw [hopen]
      nofun
  · intro sessionId
    rw [Threads.flatMap_set_of_eq hi]
    · apply h.issued
    · rfl
  · rw [hvalues]
    apply (h.written.append_right [row]).trans
    apply (Threads.flatMap_set hi _).symm
    rw [Append.rows, Append.rows]
    change call.documents.take (call.inserted + 1) = call.documents.take call.inserted ++ [row]
    rw [List.take_add_one, hrow]
    rfl
  · rw [hvalues, Dict.keys_set_of_not_mem hfresh, h.keyed, List.map_append]
    rfl

/-- A move of a call keeps what holds of the sink. -/
theorem moved (h : Consistent s) (hi : s.points[i]? = some call) {m : Move}
    (hmoved : Moved s.shared call m database' call') :
  Consistent ⟨database', s.points.set i call'⟩
  := by
  have hsound := h.sound call (List.mem_of_getElem? hi)
  induction hmoved with
  | rejected hopen hfirst hallocate =>
      apply h.ended hi
      constructor
      · apply hsound.inserted_le
      · nofun
      · rintro error ⟨⟩
        use rfl
      · nofun
  | allocated hopen hfirst hallocate => apply h.allocated hi hopen hfirst hallocate
  | duplicateKey hopen hfirst hrow hinsert =>
      exact absurd (Database.insert_eq_none_iff.mp hinsert) (h.fresh hi hrow)
  | inserted hopen hfirst hrow hinsert => apply h.inserted hi hopen hrow hinsert
  | finished hopen hfirst hall =>
      apply h.ended hi
      constructor
      · apply hsound.inserted_le
      · intro
        constructor
        · rw [hfirst]
          rfl
        · change _ = call.documents.length
          rw [Append.length_documents hfirst, ← hall]
      · nofun
      · nofun
  | crashed hopen =>
      apply h.ended hi
      constructor
      · apply hsound.inserted_le
      · nofun
      · nofun
      · nofun

theorem step {s' : State} {action : Action} (h : Consistent s)
    (hstep : MongoAudit.step s action = some s') :
  Consistent s'
  := by
  obtain rfl | ⟨first, rest, rfl⟩ | ⟨i, call, m, database', call', hi, hmoved, rfl⟩ :=
    step_cases hstep
  · apply h
  · apply h.start
  · apply h.moved hi hmoved

end Consistent

/-- Whatever the calls on an empty sink do, the sink stays consistent. -/
theorem consistent_run {actions : List Action} {s : State}
    (hrun : TransitionSystem.run step initial actions = some s) :
  Consistent s
  := TransitionSystem.run_invariant (fun _ _ _ h hstep => h.step hstep) consistent_initial hrun

/-! ### What is replayed -/

namespace Consistent

variable {s : State}

/-- No two documents of a session have one number. -/
theorem nodup_sequences (h : Consistent s) (sessionId : SessionId) :
  ((s.shared.rowsOf sessionId).map sequenceKey).Nodup
  := by
  have hids : (s.shared.committed.values.map AuditRow.id).Nodup := by
    rw [← h.keyed]
    apply Dict.nodup_keys
  have hrows : ((s.shared.rowsOf sessionId).map AuditRow.id).Nodup :=
    (List.filter_sublist.map AuditRow.id).nodup hids
  rw [List.Nodup, List.pairwise_map] at hrows ⊢
  apply hrows.imp_of_mem
  intro row row' hrow hrow' hne hsequence
  apply hne
  apply AuditRow.id_inj.mpr
  simp only [Database.rowsOf, List.mem_filter, decide_eq_true_eq] at hrow hrow'
  rw [hrow.2, hrow'.2]
  use rfl
  apply Int.ofNat.inj hsequence

/-- A replay returns the documents that were inserted, each once and in the order of their
numbers. -/
theorem replay_eq (h : Consistent s) (sessionId : SessionId) :
  ∃ rows : List AuditRow, replay s.shared sessionId = rows.map AuditRow.entry
    ∧ rows.Pairwise (fun row next => row.sequence < next.sequence)
    ∧ rows.Perm ((s.points.flatMap Append.rows).filter (fun row => row.sessionId = sessionId))
  := by
  have hnodup := h.nodup_sequences sessionId
  have hpast : Paging.past sequenceKey (s.shared.rowsOf sessionId) (-1)
      = s.shared.rowsOf sessionId := by
    apply List.filter_eq_self.mpr
    intro row _
    rw [decide_eq_true_eq]
    apply Int.lt_of_lt_of_le (by decide) (Int.natCast_nonneg row.sequence)
  use Paging.inOrder sequenceKey (s.shared.rowsOf sessionId)
  constructor
  · rw [replay, Paging.scan_eq sequenceKey (by decide) hnodup, hpast]
  · constructor
    · apply (Paging.pairwise_inOrder sequenceKey hnodup).imp
      intro row next hlt
      apply Int.ofNat_lt.mp hlt
    · apply (Paging.perm_inOrder sequenceKey _).trans
      apply h.written.filter

/-- A waiting batch is refused exactly when a higher epoch was granted a range of its session. -/
theorem allocate_eq_none_iff (h : Consistent s) (call : Append) :
  s.shared.allocate call.first.sessionId call.first.epoch call.entries.length = none
    ↔ ∃ other ∈ s.points, other.firstSequence.isSome = true
      ∧ other.first.sessionId = call.first.sessionId ∧ call.first.epoch < other.first.epoch
  := by
  rw [Database.allocate_eq_none_iff, (h.issued call.first.sessionId).allocate_eq_none_iff]
  simp only [List.mem_flatMap, Append.mem_grants]
  constructor
  · rintro ⟨grant, ⟨other, hother, hsession, firstSequence, hfirst, rfl⟩, hlt⟩
    use other, hother
    rw [hfirst]
    use rfl, hsession
  · rintro ⟨other, hother, hsome, hsession, hlt⟩
    obtain ⟨firstSequence, hfirst⟩ := Option.isSome_iff_exists.mp hsome
    use ⟨other.first.epoch, firstSequence, other.entries.length⟩
    constructor
    · use other, hother, hsession, firstSequence, hfirst
    · apply hlt

end Consistent

/-- Where a call waits for its range, the allocation is its next move, and ends it exactly when
it is refused. -/
theorem step_allocate_eq_rejected_iff {s : State} {i : ℕ} {call : Append}
    (hi : s.points[i]? = some call) (hopen : call.outcome = none)
    (hfirst : call.firstSequence = none) :
  step s (.move i .allocate)
      = some ⟨s.shared,
        s.points.set i { call with outcome := some (.rejected call.staleEpoch) }⟩
    ↔ s.shared.allocate call.first.sessionId call.first.epoch call.entries.length = none
  := by
  obtain ⟨hlt, -⟩ := List.getElem?_eq_some_iff.mp hi
  rw [step, Threads.advance, hi]
  simp only [move, hopen, hfirst]
  cases s.shared.allocate call.first.sessionId call.first.epoch call.entries.length with
  | none => simp
  | some next =>
      simp only [Option.map_some, Option.some.injEq, Threads.mk.injEq, reduceCtorEq, iff_false,
        not_and]
      intro _ hset
      have hcall := congrArg (fun points : List Append => points[i]?) hset
      simp only [List.getElem?_set_self hlt, Option.some.injEq, Append.mk.injEq, reduceCtorEq,
        and_false] at hcall

/-! ### Every interleaving of the calls -/

/-- However the calls of `append_many` on an empty sink interleave, and wherever they crash: the
ranges of two calls of a session are disjoint, no insert collides, and a batch is rejected
exactly when a higher epoch was granted a range of its session, before anything is written. A
replay returns the documents inserted in the session, each once and in the order of their
numbers; and once every call has ended, those of a call that was granted a range and has not
crashed are its whole batch, under the numbers of its range. -/
theorem appends_sequenced {actions : List Action} {s : State}
    (hrun : TransitionSystem.run step initial actions = some s) :
  (∀ (i j : ℕ) (call other : Append), i ≠ j → s.points[i]? = some call →
      s.points[j]? = some other → call.first.sessionId = other.first.sessionId →
      call.range.Disjoint other.range)
    ∧ (∀ call ∈ s.points, call.outcome ≠ some .duplicateKey)
    ∧ (∀ (i : ℕ) (call : Append), s.points[i]? = some call → call.outcome = none →
        call.firstSequence = none →
        (step s (.move i .allocate)
            = some ⟨s.shared,
              s.points.set i { call with outcome := some (.rejected call.staleEpoch) }⟩
          ↔ ∃ other ∈ s.points, other.firstSequence.isSome = true
            ∧ other.first.sessionId = call.first.sessionId
            ∧ call.first.epoch < other.first.epoch))
    ∧ (∀ call ∈ s.points, ∀ error, call.outcome = some (.rejected error) →
        call.range = [] ∧ call.rows = [])
    ∧ (∀ sessionId, ∃ rows : List AuditRow, replay s.shared sessionId = rows.map AuditRow.entry
        ∧ rows.Pairwise (fun row next => row.sequence < next.sequence)
        ∧ rows.Perm ((s.points.flatMap Append.rows).filter
            (fun row => row.sessionId = sessionId)))
    ∧ ((∀ call ∈ s.points, call.outcome ≠ none) →
        ∀ call ∈ s.points, call.firstSequence.isSome = true → call.outcome ≠ some .crashed →
          call.rows.map (fun row => (row.sessionId, row.sequence, row.entry))
            = (call.range.zip (call.entries.map stored)).map (Prod.mk call.first.sessionId))
  := by
  have h := consistent_run hrun
  constructor
  · intro i j call other hij hi hj hsession
    apply h.disjoint_range hij hi hj hsession
  constructor
  · intro call hcall
    apply (h.sound call hcall).unique
  constructor
  · intro i call hi hopen hfirst
    rw [step_allocate_eq_rejected_iff hi hopen hfirst]
    apply h.allocate_eq_none_iff
  constructor
  · intro call hcall error hrejected
    apply Append.nothing_of_unallocated ((h.sound call hcall).rejected error hrejected).2
  constructor
  · apply h.replay_eq
  · intro hended call hcall hsome hcrashed
    rw [(h.sound call hcall).rows_eq (hended call hcall) hsome hcrashed]
    apply call.documents_eq

/-- An entry of a session, at the start of time. -/
def entryOf (epoch : Epoch) (kind : String) : SessionAuditEntry :=
  ⟨⟨epoch, 0, kind, ""⟩, "s"⟩

/-- Three writers of a session and one whose epoch is stale. The second is granted its range
between the other two and crashes, so its number is left out; the third inserts its document
before the first. -/
def interleavedAppends : List Action :=
  [.appendMany [entryOf 1 "a", entryOf 1 "b"], .appendMany [entryOf 1 "lost"],
    .appendMany [entryOf 2 "c"], .appendMany [entryOf 1 "late"],
    .move 0 .allocate, .move 1 .allocate, .move 2 .allocate, .move 3 .allocate,
    .move 2 .insert, .move 1 .crash, .move 0 .insert, .move 2 .finish, .move 0 .insert,
    .move 0 .finish]

/-- The entries of the first writer are replayed, and then that of the third. -/
theorem appends_sequenced_interleaved :
  ∃ s, TransitionSystem.run step initial interleavedAppends = some s
    ∧ replay s.shared "s" = [entryOf 1 "a", entryOf 1 "b", entryOf 2 "c"]
  := by
  have hrun : (TransitionSystem.run step initial interleavedAppends).map
      (fun s => s.points.flatMap Append.rows)
        = some [⟨"s", 1, entryOf 1 "a"⟩, ⟨"s", 2, entryOf 1 "b"⟩, ⟨"s", 4, entryOf 2 "c"⟩] := by
    rfl
  obtain ⟨s, hs, hpoints⟩ := Option.map_eq_some_iff.mp hrun
  obtain ⟨-, -, -, -, hreplay, -⟩ := appends_sequenced hs
  obtain ⟨rows, hrows, hsorted, hperm⟩ := hreplay "s"
  rw [hpoints] at hperm
  use s, hs
  rw [hrows, hperm.eq_of_pairwise _ hsorted (by decide)]
  · rfl
  · intro row row' _ _ hlt hlt'
    exact absurd hlt' (Nat.lt_asymm hlt)

end MongoAudit

end Orcastork
