import Orcastork.Adapters.Mongo.AuditSequence
import Orcastork.Library.Places

/-!
# The Mongo audit sink beside the one in memory

The calls on the sink in Mongo take several moves, those on the sink in memory one. The two are run
side by side: a call is made in memory at the moment its range is allocated in Mongo. So the order
of the calls in memory is one in which each is between its begin and its end, and what they are
answered is what the calls in Mongo are (`append_many_linearizable`). What is replayed from Mongo
is what is logged in memory, less the documents that calls have not inserted yet, or never will
because they crashed.
-/

namespace Orcastork

namespace MongoAudit

open FencedRanges TransitionSystem

/-- An entry in memory, with its timestamp as Mongo keeps it. -/
def storedLog (entry : AuditLogEntry) : AuditLogEntry :=
  { entry with timestamp := toStoredResolution entry.timestamp }

/-- The batch of a call, as the sink in memory takes it. -/
def Append.logged (call : Append) : List AuditLogEntry :=
  call.entries.map SessionAuditEntry.toAuditLogEntry

/-- The two sinks. -/
structure Twin where
  mongo : State
  memory : SessionId → AuditState

namespace Twin

/-- Nothing was audited. -/
def initial : Twin := ⟨MongoAudit.initial, fun _ => .initial⟩

/-- The sink in memory after an action: a call is made where its range is allocated. -/
def commit (twin : Twin) : Action → SessionId → AuditState
  | .move i .allocate =>
    match twin.mongo.points[i]? with
    | none => twin.memory
    | some call =>
      Function.update twin.memory call.first.sessionId
        ((twin.memory call.first.sessionId).appendMany call.logged).2
  | _ => twin.memory

/-- One action on both. -/
def step (twin : Twin) (action : Action) : Option Twin :=
  (MongoAudit.step twin.mongo action).map (fun mongo => ⟨mongo, twin.commit action⟩)

end Twin

/-- A batch is one writer's entries for one session. -/
def Homogeneous : Action → Prop
  | .appendMany [] => True
  | .appendMany (first :: rest) =>
    ∀ entry ∈ rest, entry.epoch = first.epoch ∧ entry.sessionId = first.sessionId
  | .move _ _ => True

instance decidableHomogeneous : ∀ action, Decidable (Homogeneous action)
  | .appendMany [] => .isTrue trivial
  | .appendMany (first :: rest) => inferInstanceAs (Decidable
      (∀ entry ∈ rest, entry.epoch = first.epoch ∧ entry.sessionId = first.sessionId))
  | .move _ _ => .isTrue trivial

/-! ### A batch in memory -/

section

variable {call : Append} {state : AuditState}

theorem Append.logged_epoch
    (hcall : ∀ entry ∈ call.entries, entry.epoch = call.first.epoch) {entry : AuditLogEntry}
    (hentry : entry ∈ call.logged) :
  entry.epoch = call.first.epoch
  := by
  obtain ⟨audited, haudited, rfl⟩ := List.mem_map.mp hentry
  apply hcall audited haudited

/-- A batch of one epoch is rejected in memory exactly if the epoch is below the highest. -/
theorem appendMany_logged_error_iff
    (hcall : ∀ entry ∈ call.entries, entry.epoch = call.first.epoch) :
  (∃ error, (state.appendMany call.logged).1 = .error error ∧ error.isStaleEpoch = true)
    ↔ call.first.epoch < state.maxEpoch
  := by
  constructor
  · rintro ⟨error, herror, -⟩
    by_contra hle
    have hok := AuditState.appendMany_of_le (Nat.not_lt.mp hle)
      (fun entry => call.logged_epoch hcall)
    cases herror.symm.trans hok.1
  · intro hlt
    have hfirst : (state.appendMany call.logged).1 = .error (.staleEpoch
        s!"epoch {call.first.epoch} is stale (current {state.maxEpoch})") := by
      rw [Append.logged, Append.entries, List.map_cons, AuditState.appendMany, AuditState.append,
        if_pos hlt]
    exact ⟨_, hfirst, rfl⟩

/-- A batch that is accepted in memory is logged whole, and its epoch is the highest then. -/
theorem appendMany_logged_ok
    (hcall : ∀ entry ∈ call.entries, entry.epoch = call.first.epoch)
    (hle : state.maxEpoch ≤ call.first.epoch) :
  (state.appendMany call.logged).2 = ⟨state.committed ++ call.logged, call.first.epoch⟩
  := by
  obtain ⟨hok, hmax⟩ := AuditState.appendMany_of_le hle (fun entry => call.logged_epoch hcall)
  have hcommitted := AuditState.committed_appendMany hok
  have hreached : call.first.epoch ≤ (state.appendMany call.logged).2.maxEpoch := by
    rw [Append.logged, Append.entries, List.map_cons, AuditState.appendMany, AuditState.append,
      if_neg (Nat.not_lt.mpr hle)]
    apply AuditState.maxEpoch_appendMany ⟨state.committed ++ [_], call.first.epoch⟩
  rw [← hcommitted, ← Nat.le_antisymm hmax hreached]

end

/-! ### What holds of the two sinks -/

/-- The log in memory is that of the ranges allocated in Mongo, each in its place. -/
structure Agrees (twin : Twin) : Prop where
  consistent : Consistent twin.mongo
  homogeneous : ∀ call ∈ twin.mongo.points, ∀ entry ∈ call.entries,
    entry.epoch = call.first.epoch ∧ entry.sessionId = call.first.sessionId
  fence : ∀ sessionId,
    (twin.memory sessionId).maxEpoch = (twin.mongo.shared.counter sessionId).fence
  length : ∀ sessionId,
    (twin.memory sessionId).committed.length = (twin.mongo.shared.counter sessionId).last
  placed : ∀ call ∈ twin.mongo.points, ∀ firstSequence, call.firstSequence = some firstSequence →
    ∃ before after, (twin.memory call.first.sessionId).committed = before ++ call.logged ++ after
      ∧ before.length + 1 = firstSequence

namespace Agrees

variable {twin twin' : Twin} {i : ℕ} {call call' : Append} {database' : Database}

/-- The entries of a call have one epoch. -/
theorem epochs (h : Agrees twin) (hcall : call ∈ twin.mongo.points) :
  ∀ entry ∈ call.entries, entry.epoch = call.first.epoch
  := fun entry hentry => (h.homogeneous call hcall entry hentry).1

theorem start (h : Agrees twin) {first : SessionAuditEntry} {rest : List SessionAuditEntry}
    (hbatch : Homogeneous (.appendMany (first :: rest))) :
  Agrees ⟨twin.mongo.start (.begun first rest), twin.memory⟩
  := by
  constructor
  · apply h.consistent.start
  · intro call hcall
    rcases List.mem_append.mp hcall with hcall | hcall
    · apply h.homogeneous call hcall
    · rw [List.mem_singleton.mp hcall]
      intro entry hentry
      rcases List.mem_cons.mp hentry with rfl | hentry
      · use rfl
        rfl
      · apply hbatch entry hentry
  · apply h.fence
  · apply h.length
  · intro call hcall firstSequence hfirst
    rcases List.mem_append.mp hcall with hcall | hcall
    · apply h.placed call hcall firstSequence hfirst
    · rw [List.mem_singleton.mp hcall] at hfirst
      cases hfirst

/-- A call goes on without a new range, and the counters stay. -/
theorem goOn (h : Agrees twin) (hi : twin.mongo.points[i]? = some call)
    (hconsistent : Consistent ⟨database', twin.mongo.points.set i call'⟩)
    (hcounter : ∀ sessionId, database'.counter sessionId = twin.mongo.shared.counter sessionId)
    (hfirst : call'.first = call.first) (hrest : call'.rest = call.rest)
    (hrange : call'.firstSequence = call.firstSequence) :
  Agrees ⟨⟨database', twin.mongo.points.set i call'⟩, twin.memory⟩
  := by
  have hmem := List.mem_of_getElem? hi
  have hentries : call'.entries = call.entries := by
    rw [Append.entries, Append.entries, hfirst, hrest]
  constructor
  · apply hconsistent
  · intro other hother
    rcases List.mem_or_eq_of_mem_set hother with hother | rfl
    · apply h.homogeneous other hother
    · rw [hentries, hfirst]
      apply h.homogeneous call hmem
  · intro sessionId
    rw [hcounter]
    apply h.fence
  · intro sessionId
    rw [hcounter]
    apply h.length
  · intro other hother
    rcases List.mem_or_eq_of_mem_set hother with hother | rfl
    · apply h.placed other hother
    · rw [hrange, Append.logged, hentries, hfirst]
      apply h.placed call hmem

/-- A call is refused in Mongo exactly if it is rejected in memory. -/
theorem allocate_eq_none_iff (h : Agrees twin) (hcall : call ∈ twin.mongo.points) :
  twin.mongo.shared.allocate call.first.sessionId call.first.epoch call.entries.length = none
    ↔ ∃ error, ((twin.memory call.first.sessionId).appendMany call.logged).1 = .error error
      ∧ error.isStaleEpoch = true
  := by
  rw [Database.allocate_eq_none_iff, Counter.allocate_eq_none_iff,
    appendMany_logged_error_iff (h.epochs hcall), h.fence]

/-- A call whose range is refused changes neither sink. -/
theorem rejected (h : Agrees twin) (hi : twin.mongo.points[i]? = some call)
    (hopen : call.outcome = none) (hfirst : call.firstSequence = none)
    (hallocate : twin.mongo.shared.allocate call.first.sessionId call.first.epoch
      call.entries.length = none) :
  Agrees ⟨⟨twin.mongo.shared,
      twin.mongo.points.set i { call with outcome := some (.rejected call.staleEpoch) }⟩,
    twin.commit (.move i .allocate)⟩
  := by
  have hmem := List.mem_of_getElem? hi
  have hlt : call.first.epoch < (twin.memory call.first.sessionId).maxEpoch := by
    rw [h.fence]
    rw [Database.allocate_eq_none_iff, Counter.allocate_eq_none_iff] at hallocate
    apply hallocate
  have hsame : twin.commit (.move i .allocate) = twin.memory := by
    rw [Twin.commit, hi]
    dsimp only
    rw [AuditState.appendMany_of_lt hlt (fun entry => call.logged_epoch (h.epochs hmem)),
      Function.update_eq_self]
  have hconsistent := h.consistent.moved hi (Moved.rejected hopen hfirst hallocate)
  rw [hsame]
  apply h.goOn hi hconsistent (fun _ => rfl) rfl rfl rfl

/-- A range that is allocated is the place of the batch in memory. -/
theorem allocated (h : Agrees twin) (hi : twin.mongo.points[i]? = some call)
    (hopen : call.outcome = none) (hfirst : call.firstSequence = none) {sequence : ℕ}
    (hallocate : twin.mongo.shared.allocate call.first.sessionId call.first.epoch
      call.entries.length = some (sequence, database')) :
  Agrees ⟨⟨database', twin.mongo.points.set i
      { call with firstSequence := some (sequence - call.entries.length + 1) }⟩,
    twin.commit (.move i .allocate)⟩
  := by
  have hmem := List.mem_of_getElem? hi
  obtain ⟨hgrant, hothers, -⟩ := Database.allocate_eq_some hallocate
  obtain ⟨hle, hnumbers, hcounter⟩ := Counter.allocate_eq_some_iff.mp hgrant
  rw [Grant.mk.injEq] at hnumbers
  have hle' : (twin.memory call.first.sessionId).maxEpoch ≤ call.first.epoch := by
    rw [h.fence]
    apply hle
  have hcommit : twin.commit (.move i .allocate)
      = Function.update twin.memory call.first.sessionId
        ⟨(twin.memory call.first.sessionId).committed ++ call.logged, call.first.epoch⟩ := by
    rw [Twin.commit, hi]
    dsimp only
    rw [appendMany_logged_ok (h.epochs hmem) hle']
  rw [hcommit]
  constructor
  · apply h.consistent.moved hi (Moved.allocated hopen hfirst hallocate)
  · intro other hother
    rcases List.mem_or_eq_of_mem_set hother with hother | rfl
    · apply h.homogeneous other hother
    · apply h.homogeneous call hmem
  · intro sessionId
    dsimp only
    by_cases hsession : sessionId = call.first.sessionId
    · rw [hsession, Function.update_self, hcounter]
    · rw [Function.update_of_ne hsession, hothers sessionId hsession]
      apply h.fence
  · intro sessionId
    dsimp only
    by_cases hsession : sessionId = call.first.sessionId
    · rw [hsession, Function.update_self, hcounter, List.length_append, h.length, Append.logged,
        List.length_map]
    · rw [Function.update_of_ne hsession, hothers sessionId hsession]
      apply h.length
  · intro other hother firstSequence hrange
    dsimp only
    rcases List.mem_or_eq_of_mem_set hother with hother | rfl
    · obtain ⟨before, after, hcommitted, hbefore⟩ := h.placed other hother firstSequence hrange
      by_cases hsession : other.first.sessionId = call.first.sessionId
      · rw [hsession] at hcommitted
        rw [hsession, Function.update_self]
        use before, after ++ call.logged
        rw [hcommitted, List.append_assoc (before ++ other.logged)]
        use rfl
      · rw [Function.update_of_ne hsession]
        use before, after
    · obtain rfl := Option.some.inj hrange
      use (twin.memory call.first.sessionId).committed, []
      rw [Function.update_self, h.length, hnumbers.2.1, List.append_nil]
      use rfl

theorem step {action : Action} (h : Agrees twin) (hhomogeneous : Homogeneous action)
    (hstep : twin.step action = some twin') :
  Agrees twin'
  := by
  rw [Twin.step, Option.map_eq_some_iff] at hstep
  obtain ⟨mongo, hmongo, rfl⟩ := hstep
  cases action with
  | appendMany entries =>
      cases entries with
      | nil =>
          obtain rfl := Option.some.inj hmongo
          apply h
      | cons first rest =>
          obtain rfl := Option.some.inj hmongo
          apply h.start hhomogeneous
  | move i m =>
      obtain ⟨call, database', call', hi, hmove, rfl⟩ := Threads.advance_eq_some.mp hmongo
      have hmoved := moved_of_move hmove
      have hconsistent := h.consistent.moved hi hmoved
      cases hmoved with
      | rejected hopen hfirst hallocate => apply h.rejected hi hopen hfirst hallocate
      | allocated hopen hfirst hallocate => apply h.allocated hi hopen hfirst hallocate
      | duplicateKey hopen hfirst hrow hinsert =>
          apply h.goOn hi hconsistent (fun _ => rfl) rfl rfl rfl
      | inserted hopen hfirst hrow hinsert =>
          obtain ⟨-, rfl⟩ := Database.insert_eq_some_iff.mp hinsert
          apply h.goOn hi hconsistent (fun _ => rfl) rfl rfl rfl
      | finished hopen hfirst hall =>
          apply h.goOn hi hconsistent (fun _ => rfl) rfl rfl rfl
      | crashed hopen =>
          apply h.goOn hi hconsistent (fun _ => rfl) rfl rfl rfl

end Agrees

theorem agrees_run {actions : List Action} {twin : Twin}
    (hhomogeneous : ∀ action ∈ actions, Homogeneous action)
    (hrun : run Twin.step .initial actions = some twin) :
  Agrees twin
  := by
  have hinitial : Agrees .initial := by
    constructor
    · apply consistent_initial
    · intro call hcall
      cases hcall
    · intro sessionId
      rfl
    · intro sessionId
      rfl
    · intro call hcall
      cases hcall
  apply run_invariant_of_always _ hinitial (always_of_forall_mem hhomogeneous) hrun
  intro twin action twin' h hhomogeneous hstep
  apply h.step hhomogeneous hstep

/-! ### What is replayed -/

namespace Agrees

variable {twin : Twin} {sessionId : SessionId} {row : AuditRow}

/-- A document that was inserted is what is logged in memory in the place of its number. -/
theorem getElem?_committed (h : Agrees twin) {call : Append} (hcall : call ∈ twin.mongo.points)
    (hrow : row ∈ call.documents) :
  row.sessionId = call.first.sessionId ∧ 0 < row.sequence
    ∧ (twin.memory call.first.sessionId).committed[row.sequence - 1]?.map storedLog
      = some row.entry.toAuditLogEntry
  := by
  cases hfirst : call.firstSequence with
  | none =>
      rw [Append.documents, hfirst] at hrow
      cases hrow
  | some firstSequence =>
      obtain ⟨k, hk⟩ := List.mem_iff_getElem?.mp hrow
      rw [Append.getElem?_documents hfirst, Option.map_eq_some_iff] at hk
      obtain ⟨entry, hentry, rfl⟩ := hk
      obtain ⟨before, after, hcommitted, hbefore⟩ := h.placed call hcall firstSequence hfirst
      obtain ⟨hlt, -⟩ := List.getElem?_eq_some_iff.mp hentry
      have hplace : firstSequence + k - 1 = before.length + k := by omega
      refine ⟨rfl, ?_, ?_⟩
      · dsimp only
        omega
      · dsimp only
        rw [hplace, hcommitted, List.append_assoc, List.getElem?_append_right (Nat.le_add_right _ _),
          Nat.add_sub_cancel_left, List.getElem?_append_left]
        · rw [Append.logged, List.getElem?_map, hentry]
          rfl
        · rw [Append.logged, List.length_map]
          apply hlt

theorem getElem?_of_inserted (h : Agrees twin)
    (hrow : row ∈ (twin.mongo.points.flatMap Append.rows).filter
      (fun row => row.sessionId = sessionId)) :
  0 < row.sequence
    ∧ ((twin.memory sessionId).committed.map storedLog)[row.sequence - 1]?
      = some row.entry.toAuditLogEntry
  := by
  obtain ⟨hrow, hsession⟩ := List.mem_filter.mp hrow
  obtain ⟨call, hcall, hrow⟩ := List.mem_flatMap.mp hrow
  obtain ⟨hsame, hpos, hplace⟩ := h.getElem?_committed hcall (List.mem_of_mem_take hrow)
  rw [← hsame, of_decide_eq_true hsession] at hplace
  use hpos
  rw [List.getElem?_map]
  apply hplace

/-- Documents in the order of their numbers are in that of their places. -/
theorem pairwise_places {rows : List AuditRow}
    (hsorted : rows.Pairwise (fun row next => row.sequence < next.sequence))
    (hpos : ∀ row ∈ rows, 0 < row.sequence) :
  rows.Pairwise (fun row next => row.sequence - 1 < next.sequence - 1)
  := by
  apply hsorted.imp_of_mem
  intro row next hrow hnext hlt
  have hpos := hpos row hrow
  omega

/-- The replay is part of the log in memory, in its order. -/
theorem replay_sublist (h : Agrees twin) (sessionId : SessionId) :
  ((replay twin.mongo.shared sessionId).map SessionAuditEntry.toAuditLogEntry).Sublist
    ((twin.memory sessionId).replay.map storedLog)
  := by
  obtain ⟨rows, hrows, hsorted, hperm⟩ := h.consistent.replay_eq sessionId
  rw [hrows, List.map_map]
  apply Places.sublist_of_pairwise
  · apply pairwise_places hsorted
    intro row hrow
    apply (h.getElem?_of_inserted (hperm.mem_iff.mp hrow)).1
  · intro row hrow
    apply (h.getElem?_of_inserted (hperm.mem_iff.mp hrow)).2

/-- Every number up to the last of a session is that of a document, where its calls have inserted
their batches. -/
theorem exists_row (h : Agrees twin)
    (hall : ∀ call ∈ twin.mongo.points, call.first.sessionId = sessionId →
      call.firstSequence.isSome = true → call.inserted = call.entries.length)
    {n : ℕ} (hn : n < (twin.memory sessionId).committed.length) :
  ∃ row ∈ (twin.mongo.points.flatMap Append.rows).filter (fun row => row.sessionId = sessionId),
    row.sequence - 1 = n
  := by
  rw [h.length] at hn
  obtain ⟨grant, hgrant, hnumber⟩ :=
    ((h.consistent.issued sessionId).covers (n + 1)).mpr ⟨Nat.succ_pos n, hn⟩
  obtain ⟨call, hcall, hgrant⟩ := List.mem_flatMap.mp hgrant
  obtain ⟨hsession, firstSequence, hfirst, rfl⟩ := Append.mem_grants.mp hgrant
  obtain ⟨hge, hlt⟩ := Grant.mem_numbers.mp hnumber
  dsimp only at hge hlt
  have hinserted : call.inserted = call.entries.length := by
    apply hall call hcall hsession
    rw [hfirst]
    rfl
  have hrows : call.rows = call.documents := by
    rw [Append.rows, hinserted, ← Append.length_documents hfirst, List.take_length]
  obtain ⟨k, hnumber⟩ := Nat.exists_eq_add_of_le hge
  have hk : k < call.entries.length := by omega
  use ⟨call.first.sessionId, firstSequence + k, stored call.entries[k]⟩
  constructor
  · apply List.mem_filter.mpr
    constructor
    · apply List.mem_flatMap.mpr
      use call, hcall
      rw [hrows]
      apply List.mem_of_getElem?
      rw [Append.getElem?_documents hfirst, List.getElem?_eq_getElem hk]
      rfl
    · apply decide_eq_true hsession
  · dsimp only
    omega

/-- Where the calls have inserted their batches, the replay is the log in memory. -/
theorem replay_eq_of_inserted (h : Agrees twin)
    (hall : ∀ call ∈ twin.mongo.points, call.first.sessionId = sessionId →
      call.firstSequence.isSome = true → call.inserted = call.entries.length) :
  (replay twin.mongo.shared sessionId).map SessionAuditEntry.toAuditLogEntry
    = (twin.memory sessionId).replay.map storedLog
  := by
  obtain ⟨rows, hrows, hsorted, hperm⟩ := h.consistent.replay_eq sessionId
  rw [hrows, List.map_map]
  apply Places.map_eq_of_places
  · apply pairwise_places hsorted
    intro row hrow
    apply (h.getElem?_of_inserted (hperm.mem_iff.mp hrow)).1
  · intro row hrow
    apply (h.getElem?_of_inserted (hperm.mem_iff.mp hrow)).2
  · intro n hn
    rw [List.length_map] at hn
    obtain ⟨row, hrow, hplace⟩ := h.exists_row hall hn
    use row, hperm.mem_iff.mpr hrow

end Agrees

/-- However the calls of `append_many` on the sink in Mongo interleave, and wherever they crash, if
each is made on the sink in memory at the moment its range is allocated: it is rejected in Mongo
exactly if it is in memory; a replay from Mongo is always a part of the log in memory, in its order;
and it is the whole log where each call has inserted its batch. -/
theorem append_many_linearizable {actions : List Action} {twin : Twin}
    (hhomogeneous : ∀ action ∈ actions, Homogeneous action)
    (hrun : run Twin.step .initial actions = some twin) :
  (∀ (i : ℕ) (call : Append), twin.mongo.points[i]? = some call → call.outcome = none →
      call.firstSequence = none →
      (step twin.mongo (.move i .allocate) = some ⟨twin.mongo.shared,
          twin.mongo.points.set i { call with outcome := some (.rejected call.staleEpoch) }⟩
        ↔ ∃ error, ((twin.memory call.first.sessionId).appendMany call.logged).1 = .error error
          ∧ error.isStaleEpoch = true))
    ∧ ∀ sessionId,
      ((replay twin.mongo.shared sessionId).map SessionAuditEntry.toAuditLogEntry).Sublist
          ((twin.memory sessionId).replay.map storedLog)
        ∧ ((∀ call ∈ twin.mongo.points, call.first.sessionId = sessionId →
            call.firstSequence.isSome = true → call.inserted = call.entries.length) →
          (replay twin.mongo.shared sessionId).map SessionAuditEntry.toAuditLogEntry
            = (twin.memory sessionId).replay.map storedLog)
  := by
  have h := agrees_run hhomogeneous hrun
  constructor
  · intro i call hi hopen hfirst
    rw [step_allocate_eq_rejected_iff hi hopen hfirst]
    apply h.allocate_eq_none_iff (List.mem_of_getElem? hi)
  · intro sessionId
    constructor
    · apply h.replay_sublist
    · apply h.replay_eq_of_inserted

/-- Two writers of a session, of which the later one inserts first, and one that is stale. -/
def racingAppends : List Action :=
  [.appendMany [entryOf 1 "a", entryOf 1 "b"], .appendMany [entryOf 2 "c"],
    .appendMany [entryOf 1 "late"], .move 0 .allocate, .move 0 .insert, .move 1 .allocate,
    .move 1 .insert, .move 1 .finish, .move 2 .allocate, .move 0 .insert, .move 0 .finish]

/-- What is replayed after them is what is logged in memory: the batches of the first two, in the
order of their ranges. -/
theorem append_many_linearizable_racing :
  ∃ twin, run Twin.step .initial racingAppends = some twin
    ∧ (replay twin.mongo.shared "s").map SessionAuditEntry.toAuditLogEntry
      = [entryOf 1 "a", entryOf 1 "b", entryOf 2 "c"].map SessionAuditEntry.toAuditLogEntry
  := by
  have hruns : (run Twin.step .initial racingAppends).map (fun twin =>
      (decide (∀ call ∈ twin.mongo.points, call.first.sessionId = "s" →
          call.firstSequence.isSome = true → call.inserted = call.entries.length),
        (twin.memory "s").replay.map storedLog))
        = some (true,
          [entryOf 1 "a", entryOf 1 "b", entryOf 2 "c"].map SessionAuditEntry.toAuditLogEntry) := by
    rfl
  obtain ⟨twin, hrun, hfacts⟩ := Option.map_eq_some_iff.mp hruns
  rw [Prod.mk.injEq] at hfacts
  obtain ⟨hall, hlogged⟩ := hfacts
  have hlinear := append_many_linearizable (by decide) hrun
  use twin, hrun
  rw [(hlinear.2 "s").2 (of_decide_eq_true hall), hlogged]

end MongoAudit

end Orcastork
