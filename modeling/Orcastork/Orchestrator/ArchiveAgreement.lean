import Orcastork.Adapters.Memory.StoreMerge
import Orcastork.Library.TransitionSystem
import Orcastork.Orchestrator.Bookkeeping

/-!
# The archive records the store

The store merges what it is given by identity; the archive folds every observation by value
hash, on its own. Where the two keys agree on what is observed, the two merges are
corresponding upserts: after any runs of a session, flushed at any points, a reader of the
archive sees the DataPoints of the store that are not ephemeral, one entry for each, in
their order (`archive_records_snapshot`), and replaying the entries gives them back.
-/

namespace Orcastork

/-! ### The runs of a session -/

/-- What happens to the DataPoints of a session: a run starts, it merges a batch, the
archive is flushed. -/
inductive RecordingEvent where
  | run (epoch : Epoch)
  | seed (now : Timestamp) (dataPoints : List BaseDataPoint)
  | emissions (now : Timestamp) (emitted : List Emitted)
  | inbox (now : Timestamp) (dataPoints : List BaseDataPoint)
  | flush

/-- The DataPoints an event observes. -/
def RecordingEvent.dataPoints : RecordingEvent → List BaseDataPoint
  | .run _ => []
  | .seed _ dataPoints => dataPoints
  | .emissions _ emitted => emitted.map Emitted.dataPoint
  | .inbox _ dataPoints => dataPoints
  | .flush => []

/-- A session: the epoch of its latest run, and what its merges read and change. -/
structure Recording where
  epoch : Epoch
  state : MergeState

namespace Recording

/-- A session before its first run. -/
def initial (sessionId : SessionId) : Recording where
  epoch := 0
  state :=
    { mirror := .initial sessionId
      store := .initial
      audit := .initial
      archive := .initial
      coalescedAudits := .empty
      reobservedAudits := .empty }

/-- A merge of the run at the given time, nothing failing by itself. -/
def call (recording : Recording) (now : Timestamp) : MergeCall :=
  ⟨recording.epoch, now, .none⟩

/-- The session after a merge that raised nothing. -/
def merged (recording : Recording) :
    Except OrchestrationError Unit × MergeState → Option Recording
  | (.ok (), state) => some { recording with state := state }
  | (.error _, _) => none

/-- One event; it cannot happen where it would raise. A run begins by rehydrating a mirror
of its own, with its counters at zero. -/
def step (services : MergeServices) (recording : Recording) :
    RecordingEvent → Option Recording
  | .run epoch =>
    let mirror := SessionStateMirror.initial services.sealing.sessionId
    some ⟨epoch,
      { recording.state with
        mirror := mirror.rehydrate recording.state.store
        coalescedAudits := .empty
        reobservedAudits := .empty }⟩
  | .seed now dataPoints =>
    recording.merged (recording.state.merge services (recording.call now) dataPoints none)
  | .emissions now emitted =>
    recording.merged (recording.state.mergeEmissions services (recording.call now) emitted)
  | .inbox now dataPoints =>
    recording.merged
      (recording.state.applyInboxDataPoints services (recording.call now) dataPoints)
  | .flush =>
    some { recording with
      state := { recording.state with archive := recording.state.archive.flush.2 } }

end Recording

/-! ### What the archive holds -/

/-- A buffered or committed entry of a DataPoint that one of the observed ones is, up to its
last retrieval. -/
def Archives (services : MergeServices) (observed : List BaseDataPoint)
    (dataPoint : BaseDataPoint) (entry : ArchivedDataPoint) : Prop :=
  (∃ first ∈ observed, services.keeps first ∧ ∃ at', dataPoint = first.reobserved at')
    ∧ ∃ epoch, entry = services.sealing.archived services.leaves dataPoint epoch

/-- On the observed DataPoints that are archived, the value hash tells apart what the
identity does. -/
def HashesIdentities (services : MergeServices) (observed : List BaseDataPoint) : Prop :=
  ∀ dp ∈ observed.filter services.keeps, ∀ dp' ∈ observed.filter services.keeps,
    (services.sealing.archiveKey services.leaves dp
        = services.sealing.archiveKey services.leaves dp'
      ↔ identityKey dp = identityKey dp')

section Corresponding

variable {services : MergeServices} {observed : List BaseDataPoint}

/-- The two keys agree on a DataPoint and its entry. -/
theorem Archives.key_iff (hhash : HashesIdentities services observed)
    {dp dp' : BaseDataPoint} {entry entry' : ArchivedDataPoint}
    (h : Archives services observed dp entry) (h' : Archives services observed dp' entry') :
  BaseDataPoint.upsert.key dp = BaseDataPoint.upsert.key dp'
    ↔ ArchiveState.upsert.key entry = ArchiveState.upsert.key entry'
  := by
  obtain ⟨⟨first, hfirst, hkeep, at₁, rfl⟩, epoch, rfl⟩ := h
  obtain ⟨⟨first', hfirst', hkeep', at₂, rfl⟩, epoch', rfl⟩ := h'
  have hiff := hhash first (List.mem_filter.mpr ⟨hfirst, hkeep⟩) first'
    (List.mem_filter.mpr ⟨hfirst', hkeep'⟩)
  simp only [BaseDataPoint.upsert, ArchiveState.upsert, Sealing.key_archived,
    Sealing.archiveKey_reobserved, identityKey_reobserved]
  exact hiff.symm

/-- An observation moves a DataPoint and its entry alike. -/
theorem Archives.join {dp dp' : BaseDataPoint} {entry entry' : ArchivedDataPoint}
    (h : Archives services observed dp entry) (h' : Archives services observed dp' entry') :
  Archives services observed (BaseDataPoint.upsert.join dp dp')
    (ArchiveState.upsert.join entry entry')
  := by
  obtain ⟨⟨first, hfirst, hkeep, at₁, rfl⟩, epoch, rfl⟩ := h
  obtain ⟨-, epoch', rfl⟩ := h'
  constructor
  · use first, hfirst, hkeep, max at₁ dp'.lastRetrieved
    exact reobserved_reobserved first at₁ dp'.lastRetrieved
  · use max epoch epoch'
    simp only [BaseDataPoint.upsert, ArchiveState.upsert, Sealing.lastRetrieved_archived,
      Sealing.epoch_archived]
    exact (services.sealing.archived_reobserved services.leaves (first.reobserved at₁)
      dp'.lastRetrieved epoch (max epoch epoch')).symm

/-- An observed DataPoint is archived as its document. -/
theorem archives_archived {dp : BaseDataPoint} (hdp : dp ∈ observed)
    (hkeep : services.keeps dp = true) (epoch : Epoch) :
  Archives services observed dp (services.sealing.archived services.leaves dp epoch)
  := by
  refine ⟨⟨dp, hdp, hkeep, dp.lastRetrieved, ?_⟩, epoch, rfl⟩
  rw [reobserved_of_le (le_refl dp.lastRetrieved)]

end Corresponding

/-- The archive holds the DataPoints of the store that are not ephemeral, in their order. -/
structure Recorded (services : MergeServices) (observed : List BaseDataPoint)
    (state : MergeState) : Prop where
  wellFormed : state.store.WellFormed
  /-- Nothing is merged before the mirror is rehydrated. -/
  agrees : state.mirror.hydrated = true → Agrees state.mirror state.store
  keyed : ArchiveState.Keyed state.archive.folded
  entries : List.Forall₂ (Archives services observed)
    (state.store.snapshot.filter services.keeps) state.archive.folded.values

namespace Recorded

variable {services : MergeServices} {observed : List BaseDataPoint}

theorem initial (sessionId : SessionId) :
  Recorded services observed (Recording.initial sessionId).state
  := by
  constructor
  · exact SessionState.initial_wellFormed
  · intro h
    cases h
  · intro key entry h
    cases h
  · exact .nil

variable {state state' : MergeState}

/-- A new run finds the session recorded. -/
theorem rehydrate (h : Recorded services observed state) (mirror : SessionStateMirror)
    (counter counter' : Dict DataPointType ℕ) :
  Recorded services observed
    { state with
      mirror := mirror.rehydrate state.store
      coalescedAudits := counter
      reobservedAudits := counter' }
  := ⟨h.wellFormed, fun _ => agrees_rehydrate mirror h.wellFormed, h.keyed, h.entries⟩

/-- A flush is not seen by a reader. -/
theorem flush (h : Recorded services observed state) :
  Recorded services observed { state with archive := state.archive.flush.2 }
  := ⟨h.wellFormed, h.agrees, h.keyed, h.entries⟩

/-- A batch that is written and booked is recorded. -/
theorem book (hhash : HashesIdentities services observed)
    (h : Recorded services observed state) {call : MergeCall}
    (hcall : call.faults.archive = none) {emitted : List Emitted}
    (hobserved : ∀ dp ∈ emitted.map Emitted.dataPoint, dp ∈ observed)
    {written : MergeState} {result : MirrorWriteResult}
    (hwrite : state.write call (emitted.map Emitted.dataPoint) = (.ok result, written))
    (hbook : written.mergeBookkeeping services call emitted result.outcomes
      = (.ok (), state')) :
  Recorded services observed state'
  := by
  have hhydrated : state.mirror.hydrated = true := by
    rw [MergeState.write] at hwrite
    split at hwrite
    · cases hwrite
    · rw [SessionStateMirror.write, SessionStateMirror.requireHydrated] at hwrite
      cases hmirror : state.mirror.hydrated with
      | true => rfl
      | false => simp [hmirror] at hwrite
  obtain ⟨⟨revision, hstore⟩, hagrees, hlength, hframe⟩ :=
    MergeState.write_eq_ok (h.agrees hhydrated) hwrite
  rw [List.length_map] at hlength
  have harchive := MergeState.archive_mergeBookkeeping hcall hlength hbook
  obtain ⟨hmirror', hstore'⟩ :=
    @MergeState.mergeBookkeeping_frame services call written emitted result.outcomes
  rw [hbook] at hmirror' hstore'
  have hwritten : written.archive = state.archive := by rw [hframe]
  rw [hwritten] at harchive
  obtain ⟨hvalues, hkeyed⟩ := ArchiveState.values_folded_archiveMany h.keyed harchive
  have hsnapshot := SessionState.snapshot_write h.wellFormed hstore
  simp only at hmirror' hstore'
  constructor
  · rw [hstore']
    exact hagrees.wellFormed
  · intro _
    rw [hmirror', hstore']
    exact hagrees
  · exact hkeyed
  · rw [hstore', hsnapshot, hvalues, BaseDataPoint.upsert.filter_putAll]
    · apply Upsert.forall₂_putAll
      · intro dp dp' entry entry' hdp hdp'
        exact hdp.key_iff hhash hdp'
      · intro dp dp' entry entry' hdp hdp' _
        exact hdp.join hdp'
      · rw [List.map_map]
        apply List.forall₂_map_right_iff.mpr
        apply List.forall₂_same.mpr
        intro dp hdp
        obtain ⟨hdp, hkeep⟩ := List.mem_filter.mp hdp
        exact archives_archived (hobserved dp hdp) hkeep call.epoch
      · exact h.entries
    · intro dp dp' hkey
      have htype : dp.type = dp'.type := congrArg Prod.fst hkey
      simp only [MergeServices.keeps, Leaves.isEphemeral, htype]

/-- A merge that raises nothing is recorded. -/
theorem mergeEmissions (hhash : HashesIdentities services observed)
    (h : Recorded services observed state) {call : MergeCall}
    (hcall : call.faults.archive = none) {emitted : List Emitted}
    (hobserved : ∀ dp ∈ emitted.map Emitted.dataPoint, dp ∈ observed)
    (hmerge : state.mergeEmissions services call emitted = (.ok (), state')) :
  Recorded services observed state'
  := by
  rw [MergeState.mergeEmissions] at hmerge
  split at hmerge
  · cases hmerge
    exact h
  · split at hmerge
    · cases hmerge
    · rename_i result written hwrite
      exact h.book hhash hcall hobserved hwrite hmerge

/-- A delivered batch whose apply raises nothing is recorded. -/
theorem applyInboxDataPoints (hhash : HashesIdentities services observed)
    (h : Recorded services observed state) {call : MergeCall} (hcall : call.faults = .none)
    {dataPoints : List BaseDataPoint} (hobserved : ∀ dp ∈ dataPoints, dp ∈ observed)
    (hmerge : state.applyInboxDataPoints services call dataPoints = (.ok (), state')) :
  Recorded services observed state'
  := by
  have hmap : (dataPoints.map (fun dp => (⟨none, dp⟩ : Emitted))).map Emitted.dataPoint
      = dataPoints := by
    rw [List.map_map]
    exact List.map_id dataPoints
  have haudit : call.faults.audit = none := by rw [hcall]; rfl
  have harchive : call.faults.archive = none := by rw [hcall]; rfl
  rw [MergeState.applyInboxDataPoints] at hmerge
  split at hmerge
  · cases hmerge
  · rename_i result written hwrite
    split at hmerge
    · rename_i booked hbook
      cases hmerge
      rw [← hmap] at hobserved
      exact h.book hhash harchive hobserved hwrite hbook
    · -- Nothing fails by itself, so a failure is a fencing signal, and that propagates.
      rename_i error booked hbook
      have hstale := MergeState.isStaleEpoch_mergeBookkeeping haudit harchive
        (congrArg Prod.fst hbook)
      rw [if_pos hstale] at hmerge
      cases hmerge

/-- An event that happens keeps the session recorded. -/
theorem step (hhash : HashesIdentities services observed) {recording recording' : Recording}
    {event : RecordingEvent} (hobserved : ∀ dp ∈ event.dataPoints, dp ∈ observed)
    (h : Recorded services observed recording.state)
    (hstep : recording.step services event = some recording') :
  Recorded services observed recording'.state
  := by
  have hmerged : ∀ {result}, recording.merged result = some recording' →
      result = (.ok (), recording'.state) := by
    rintro ⟨result, state⟩ hresult
    cases result with
    | error error => cases hresult
    | ok =>
        cases hresult
        rfl
  cases event with
  | run epoch =>
      cases hstep
      exact h.rehydrate _ .empty .empty
  | seed now dataPoints =>
      apply h.mergeEmissions hhash rfl _ (hmerged hstep)
      intro dp hdp
      obtain ⟨signal, hsignal, rfl⟩ := List.mem_map.mp hdp
      obtain ⟨dp', hdp', rfl⟩ := List.mem_map.mp hsignal
      exact hobserved dp' hdp'
  | emissions now emitted => exact h.mergeEmissions hhash rfl hobserved (hmerged hstep)
  | inbox now dataPoints => exact h.applyInboxDataPoints hhash rfl hobserved (hmerged hstep)
  | flush =>
      cases hstep
      exact h.flush

end Recorded

/-! ### Reading and replaying the archive -/

/-- An unsealed entry tells of a DataPoint, its value as JSON. -/
structure Records (leaves : Leaves) (dataPoint : BaseDataPoint) (entry : ArchivedDataPoint) :
    Prop where
  type : entry.type = dataPoint.type
  value : entry.value = leaves.dump dataPoint.type dataPoint.value
  retrievedBy : entry.retrievedBy = dataPoint.retrievedBy
  firstRetrieved : entry.firstRetrieved = dataPoint.firstRetrieved
  lastRetrieved : entry.lastRetrieved = dataPoint.lastRetrieved

/-- The DataPoints observed by the events of a session. -/
def observations (events : List RecordingEvent) : List BaseDataPoint :=
  events.flatMap RecordingEvent.dataPoints

section Runs

variable {services : MergeServices}

theorem recorded_run {events : List RecordingEvent}
    (hhash : HashesIdentities services (observations events)) {recording : Recording}
    (hrun : TransitionSystem.run (Recording.step services)
      (.initial services.sealing.sessionId) events = some recording) :
  Recorded services (observations events) recording.state
  := by
  let Held (taken : List RecordingEvent) (recording : Recording) : Prop :=
    (∀ event ∈ taken, event ∈ events) →
      Recorded services (observations events) recording.state
  have hstart : Held [] (.initial services.sealing.sessionId) :=
    fun _ => Recorded.initial services.sealing.sessionId
  have h : Held ([] ++ events) recording := by
    apply TransitionSystem.run_history _ hstart hrun
    intro taken recording event recording' ih hstep htaken
    simp only [List.mem_append, List.mem_singleton] at htaken
    apply (ih fun e he => htaken e (Or.inl he)).step hhash _ hstep
    intro dp hdp
    exact List.mem_flatMap.mpr ⟨event, htaken event (Or.inr rfl), hdp⟩
  apply h
  intro event hevent
  exact hevent

/-- What a reader of the archive sees of a recorded session. -/
theorem Recorded.read {observed : List BaseDataPoint} {state : MergeState}
    (h : Recorded services observed state)
    (hrestores : ∀ dp ∈ observed.filter services.keeps,
      Restores services.sealing services.leaves dp) (now : Timestamp) :
  List.Forall₂
    (fun dp entry => Records services.leaves dp entry
      ∧ reconstruct services.leaves entry = .ok dp)
    (state.store.snapshot.filter services.keeps)
    (state.archive.read services.sealing.unsealEntry none now)
  := by
  have hall : state.archive.folded.values.filter (ArchiveState.live none now)
      = state.archive.folded.values :=
    List.filter_eq_self.mpr (fun _ _ => rfl)
  rw [ArchiveState.read, hall, List.forall₂_map_right_iff]
  apply h.entries.imp
  rintro dp entry ⟨⟨first, hfirst, hkeep, at', rfl⟩, epoch, rfl⟩
  have hdp := (hrestores first (List.mem_filter.mpr ⟨hfirst, hkeep⟩)).reobserved at'
  constructor
  · rw [hdp.unsealEntry_archived]
    exact ⟨rfl, rfl, rfl, rfl, rfl⟩
  · exact hdp.reconstruct_unsealEntry epoch

theorem forall₂_reconstruct {leaves : Leaves} {dataPoints : List BaseDataPoint}
    {entries : List ArchivedDataPoint}
    (h : List.Forall₂ (fun dp entry => reconstruct leaves entry = .ok dp) dataPoints entries) :
  entries.mapM (reconstruct leaves) = .ok dataPoints
  := by
  induction h with
  | nil => rfl
  | cons hhead htail ih =>
      rw [List.mapM_cons, hhead, ih]
      rfl

/-- After any runs of a session in which nothing fails, flushed at any points, a reader of
the archive finds one entry for each DataPoint of the store that is not ephemeral, in their
order; replay reconstructs these DataPoints from the entries, and writing them into an empty
store gives a snapshot of them. -/
theorem archive_records_snapshot (services : MergeServices) {events : List RecordingEvent}
    (hhash : HashesIdentities services (observations events))
    (hrestores : ∀ dp ∈ (observations events).filter services.keeps,
      Restores services.sealing services.leaves dp)
    {recording : Recording}
    (hrun : TransitionSystem.run (Recording.step services)
      (.initial services.sealing.sessionId) events = some recording) (now : Timestamp) :
  let kept := recording.state.store.snapshot.filter services.keeps
  let entries := recording.state.archive.read services.sealing.unsealEntry none now
  List.Forall₂ (Records services.leaves) kept entries
    ∧ entries.mapM (reconstruct services.leaves) = .ok kept
    ∧ ∀ epoch, ∃ revision state,
      SessionState.initial.write kept epoch = .ok (revision, state) ∧ state.snapshot = kept
  := by
  intro kept entries
  have hrecorded := recorded_run hhash hrun
  have hread := hrecorded.read hrestores now
  have hnodup : (kept.map identityKey).Nodup :=
    (List.filter_sublist.map identityKey).nodup
      (SessionState.nodup_identityKey_snapshot hrecorded.wellFormed)
  refine ⟨?_, ?_, ?_⟩
  · apply hread.imp
    intro dp entry h
    exact h.1
  · apply forall₂_reconstruct
    apply hread.imp
    intro dp entry h
    exact h.2
  · intro epoch
    exact SessionState.snapshot_write_initial hnodup epoch

end Runs

/-! ### A session of texts -/

/-- A DataPoint whose value is a text. -/
def textDataPoint (type : DataPointType) (text : String) (retrieved : Timestamp) :
    BaseDataPoint where
  type := type
  value := .str text
  retrievedBy := "collector"
  firstRetrieved := retrieved
  lastRetrieved := retrieved
  hashed := .str text
  hashable := makeHashable_str text

/-- Leaves of texts, one of them PII and one ephemeral; a sealed text has a mark before it. -/
def textServices : MergeServices where
  leaves :=
    { config := fun type => ⟨type = "mail", type = "tick", true⟩
      dump := fun _ value => value
      parse := fun _ value => .ok value }
  sealing :=
    { sessionId := "s"
      literals := ⟨fun _ => "", fun _ => true⟩
      cipher :=
        { encrypt := fun text => "#" ++ text
          decrypt := fun text => String.ofList text.toList.tail
          mac := fun text => text }
      sha256 := fun text => text
      dumps := fun value =>
        match value with
        | .str text => text
        | _ => ""
      loads := .str }
  auditDetail := fun dataPoint _ => dataPoint.type

/-- Two runs of a session: both observe a note and a mail, a flush in between. -/
def textEvents : List RecordingEvent :=
  [.run 1,
    .seed 0 [textDataPoint "note" "a" 0, textDataPoint "tick" "t" 0],
    .flush,
    .emissions 5
      [⟨some "collector", textDataPoint "mail" "b" 5⟩,
        ⟨some "collector", textDataPoint "note" "a" 5⟩],
    .run 2,
    .inbox 9 [textDataPoint "note" "a" 3, textDataPoint "mail" "b" 9]]

theorem archive_records_snapshot_texts :
  ∃ recording,
    TransitionSystem.run (Recording.step textServices)
        (.initial textServices.sealing.sessionId) textEvents = some recording
      ∧ let kept := recording.state.store.snapshot.filter textServices.keeps
        let entries := recording.state.archive.read textServices.sealing.unsealEntry none 0
        List.Forall₂ (Records textServices.leaves) kept entries
          ∧ entries.mapM (reconstruct textServices.leaves) = .ok kept
          ∧ ∀ epoch, ∃ revision state,
            SessionState.initial.write kept epoch = .ok (revision, state)
              ∧ state.snapshot = kept
  := by
  have hhash : HashesIdentities textServices (observations textEvents) := by
    unfold HashesIdentities
    decide
  have hrestores : ∀ dp ∈ (observations textEvents).filter textServices.keeps,
      Restores textServices.sealing textServices.leaves dp := by
    intro dp hdp
    have htext : ∃ text, dp.value = .str text := by
      have hobserved := List.mem_of_mem_filter hdp
      simp only [observations, textEvents, RecordingEvent.dataPoints, List.flatMap_cons,
        List.flatMap_nil, List.map_cons, List.map_nil, List.cons_append, List.nil_append,
        List.append_nil, List.mem_cons, List.not_mem_nil, or_false] at hobserved
      rcases hobserved with rfl | rfl | rfl | rfl | rfl | rfl
      all_goals exact ⟨_, rfl⟩
    obtain ⟨text, htext⟩ := htext
    constructor
    · simp [textServices, htext, String.toList_append]
    · simp [textServices, htext]
    · simp [textServices]
  exact ⟨_, rfl, archive_records_snapshot textServices hhash hrestores rfl 0⟩

end Orcastork
