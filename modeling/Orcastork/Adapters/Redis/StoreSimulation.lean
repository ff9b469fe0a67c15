import Orcastork.Adapters.Redis.Store
import Orcastork.Library.Readable

/-!
# The Redis store simulates the in-memory store

`Corresponds` relates a state of the in-memory store to the keys of a Redis session: the
hashes hold the JSON of the entries at their identity strings, the stamps and the effect
marks are the same, and both have the same revision and fence. Reads of corresponding
states return the same, up to the order of a hash.

Every operation but `write` keeps corresponding states corresponding and returns the same
in both stores, so the two run side by side forever.
-/

namespace Orcastork

/-- What the simulation relies on for the DataPoints in play: two of them have one identity
string exactly when they have one identity key, and their JSON and timestamps round-trip. -/
structure Wire.FaithfulOn (wire : Wire) (inPlay : BaseDataPoint → Prop) : Prop where
  identity_eq_iff : ∀ {a b}, inPlay a → inPlay b →
    (wire.identity a = wire.identity b ↔ identityKey a = identityKey b)
  parse_dumps : ∀ {a}, inPlay a → wire.parse (wire.dumps a) = .ok a
  /-- An observation of a DataPoint in play freshens only to DataPoints in play. -/
  reobserved : ∀ {a b}, inPlay a → inPlay b → inPlay (a.reobserved b.lastRetrieved)
  fromisoformat_isoformat : ∀ timestamp, wire.fromisoformat (wire.isoformat timestamp) = timestamp

/-- The hashes of a session hold the entries: every DataPoint in play has the same value and
the same stamps in both. -/
structure Stored (wire : Wire) (inPlay : BaseDataPoint → Prop) (entries : Entries)
    (session : RedisSession) : Prop where
  mem : ∀ {key entry}, entries.get? key = some entry → inPlay entry.dataPoint
  /-- Every field is the identity of a DataPoint in play. -/
  fields : ∀ {identity raw}, session.dp.get? identity = some raw →
    ∃ d, inPlay d ∧ wire.identity d = identity
  dp : ∀ {d}, inPlay d → session.dp.get? (wire.identity d)
    = (entries.get? (identityKey d)).map (fun entry => wire.dumps entry.dataPoint)
  added : ∀ {d}, inPlay d → (session.added.get? (wire.identity d)).getD 0
    = ((entries.get? (identityKey d)).map Entry.addedRev).getD 0
  upd : ∀ {d}, inPlay d → (session.upd.get? (wire.identity d)).getD 0
    = ((entries.get? (identityKey d)).map Entry.updatedRev).getD 0

/-- A state of the in-memory store and the keys of a Redis session that say the same. -/
structure Corresponds (wire : Wire) (inPlay : BaseDataPoint → Prop) (state : SessionState)
    (session : RedisSession) : Prop where
  wellFormed : state.WellFormed
  stored : Stored wire inPlay state.entries session
  epoch : session.epoch = state.maxEpoch
  rev : session.rev = state.revision
  wm : ∀ operatorId, session.wm.get? operatorId = state.watermarks.get? operatorId
  fx : ∀ effectKey, session.fx.get? effectKey
    = (state.effects.get? effectKey).map EffectState.text
  deadline : session.metaFields.get? "deadline" = state.deadline.map wire.isoformat
  fingerprint : session.metaFields.get? "flow_fingerprint" = state.flowFingerprint

variable {wire : Wire} {inPlay : BaseDataPoint → Prop}

/-- The empty states correspond. -/
theorem corresponds_initial :
  Corresponds wire inPlay .initial .initial
  := by
  constructor
  · apply SessionState.initial_wellFormed
  · constructor
    · intro key entry h
      cases h
    · intro identity raw h
      cases h
    · intros
      rfl
    · intros
      rfl
    · intros
      rfl
  · rfl
  · rfl
  · intros
    rfl
  · intros
    rfl
  · rfl
  · rfl

/-! ### Reads -/

/-- A loop none of whose turns raises returns what its turns return. -/
theorem mapM_eq_ok {α β ε : Type} {f : α → Except ε β} {l : List α}
    (h : ∀ x ∈ l, ∃ y, f x = .ok y) :
  l.mapM f = .ok (l.filterMap (fun x => (f x).toOption))
  := by
  induction l with
  | nil => rfl
  | cons x l ih =>
      obtain ⟨y, hy⟩ := h x List.mem_cons_self
      have hrest := ih (fun z hz => h z (List.mem_cons_of_mem x hz))
      rw [List.mapM_cons, hy, hrest, List.filterMap_cons, hy]
      rfl

namespace Stored

variable {entries : Entries} {session : RedisSession}

/-- An item of the DataPoint hash reads as the entry at its identity. -/
theorem readEntry_of_mem (hwire : wire.FaithfulOn inPlay) (h : Stored wire inPlay entries session)
    {item : String × String} (hitem : item ∈ session.dp.items) :
  ∃ d entry, inPlay d ∧ wire.identity d = item.1 ∧ entries.get? (identityKey d) = some entry
    ∧ session.readEntry wire item = .ok entry
  := by
  obtain ⟨identity, raw⟩ := item
  have hraw := Dict.get?_eq_some_iff.mpr hitem
  obtain ⟨d, hd, rfl⟩ := h.fields hraw
  have hdp := h.dp hd
  rw [hraw] at hdp
  cases hentry : entries.get? (identityKey d) with
  | none =>
      rw [hentry] at hdp
      cases hdp
  | some entry =>
      rw [hentry] at hdp
      cases hdp
      have hadded := h.added hd
      have hupd := h.upd hd
      rw [hentry] at hadded hupd
      use d, entry
      refine ⟨hd, rfl, hentry, ?_⟩
      rw [RedisSession.readEntry, hwire.parse_dumps (h.mem hentry), hadded, hupd]
      rfl

/-- The entries read from the hashes are the entries of the in-memory store. -/
theorem entries_eq (hwire : wire.FaithfulOn inPlay) (h : Stored wire inPlay entries session)
    (hkeyed : ∀ {key entry}, entries.get? key = some entry → identityKey entry.dataPoint = key) :
  ∃ read, session.entries wire = .ok read ∧ read.Perm entries.values
  := by
  use session.dp.items.filterMap (fun item => (session.readEntry wire item).toOption)
  constructor
  · apply mapM_eq_ok
    intro item hitem
    obtain ⟨d, entry, -, -, -, hread⟩ := h.readEntry_of_mem hwire hitem
    use entry
  · have hvalues : entries.values.Nodup := by
      apply List.Nodup.map_on _ (List.Nodup.of_map _ entries.nodup)
      rintro ⟨key, entry⟩ hmem ⟨key', entry'⟩ hmem' heq
      cases heq
      rw [← hkeyed (Dict.get?_eq_some_iff.mpr hmem), ← hkeyed (Dict.get?_eq_some_iff.mpr hmem')]
    apply (List.perm_ext_iff_of_nodup _ hvalues).mpr
    · intro entry
      rw [List.mem_filterMap, Dict.mem_values_iff]
      constructor
      · rintro ⟨item, hitem, hread⟩
        obtain ⟨d, entry', -, -, hentry, hread'⟩ := h.readEntry_of_mem hwire hitem
        rw [hread'] at hread
        cases hread
        use identityKey d
      · rintro ⟨key, hentry⟩
        have hd := h.mem hentry
        have hdp := h.dp hd
        rw [hkeyed hentry, hentry] at hdp
        have hmem := Dict.get?_eq_some_iff.mp hdp
        refine ⟨_, hmem, ?_⟩
        obtain ⟨d, entry', hd', hidentity, hentry', hread⟩ := h.readEntry_of_mem hwire hmem
        rw [(hwire.identity_eq_iff hd' hd).mp hidentity, hkeyed hentry, hentry] at hentry'
        cases hentry'
        rw [hread]
        rfl
    · rw [List.Nodup, List.pairwise_filterMap]
      have hfields : session.dp.items.Pairwise (fun item item' => item.1 ≠ item'.1) :=
        List.pairwise_map.mp session.dp.nodup
      apply hfields.imp_of_mem
      intro item item' hitem hitem' hne entry hread entry' hread' heq
      obtain ⟨d, e, hd, hidentity, hentry, hok⟩ := h.readEntry_of_mem hwire hitem
      obtain ⟨d', e', hd', hidentity', hentry', hok'⟩ := h.readEntry_of_mem hwire hitem'
      rw [hok] at hread
      rw [hok'] at hread'
      cases hread
      cases hread'
      apply hne
      rw [← hidentity, ← hidentity', hwire.identity_eq_iff hd hd', ← hkeyed hentry,
        ← hkeyed hentry', heq]

end Stored

/-- Two change sets with the same DataPoints. -/
def ChangeSet.Same (a b : ChangeSet) : Prop :=
  a.added.Perm b.added ∧ a.updated.Perm b.updated

namespace Corresponds

variable {state : SessionState} {session : RedisSession}

theorem snapshot_eq (hwire : wire.FaithfulOn inPlay) (h : Corresponds wire inPlay state session) :
  ∃ view, session.snapshot wire = .ok view ∧ view.Perm state.snapshot
  := by
  obtain ⟨read, hread, hperm⟩ := h.stored.entries_eq hwire h.wellFormed.keyed
  use read.map Entry.dataPoint
  constructor
  · rw [RedisSession.snapshot, hread]
    rfl
  · apply hperm.map

theorem changeSetSince_eq (hwire : wire.FaithfulOn inPlay)
    (h : Corresponds wire inPlay state session) (since : Revision) :
  ∃ changes, session.changeSetSince wire since = .ok changes
    ∧ changes.Same (state.changeSetSince since)
  := by
  obtain ⟨read, hread, hperm⟩ := h.stored.entries_eq hwire h.wellFormed.keyed
  rw [RedisSession.changeSetSince, hread]
  refine ⟨_, rfl, ?_, ?_⟩
  · apply (hperm.filter _).map
  · simp only [gt_iff_lt, not_lt, SessionState.changeSetSince]
    apply (hperm.filter _).map

end Corresponds

/-! ### Calls of either store -/

/-- The operations of the store, with their arguments. -/
inductive StoreCall where
  | write (dataPoints : List BaseDataPoint) (epoch : Epoch)
  | applyResolved (added updated : List BaseDataPoint) (epoch : Epoch)
  | setWatermark (operatorId : OperatorId) (revision : Revision) (epoch : Epoch)
  | claimEffect (effectKey : String) (epoch : Epoch) (reclaimStale : Bool)
  | commitEffect (effectKey : String) (epoch : Epoch)
  | revertEffect (effectKey : String) (epoch : Epoch)
  | setSessionDeadline (deadline : Timestamp) (epoch : Epoch)
  | setFlowFingerprint (fingerprint : String) (epoch : Epoch)
  | snapshot
  | revision
  | changeSetSince (since : Revision)
  | getWatermark (operatorId : OperatorId)
  | getEffectState (effectKey : String)
  | getSessionDeadline
  | getFlowFingerprint

/-- What an operation returns. -/
inductive StoreReply where
  | done
  | revision (revision : Revision)
  | claim (claim : EffectClaim)
  | view (view : DataPointView)
  | changes (changes : ChangeSet)
  | watermark (watermark : Option Revision)
  | effectState (state : Option String)
  | deadline (deadline : Option Timestamp)
  | fingerprint (fingerprint : Option String)

namespace StoreCall

/-- The epoch a guarded write is made with; a read has none. -/
def epoch? : StoreCall → Option Epoch
  | .write _ epoch => some epoch
  | .applyResolved _ _ epoch => some epoch
  | .setWatermark _ _ epoch => some epoch
  | .claimEffect _ epoch _ => some epoch
  | .commitEffect _ epoch => some epoch
  | .revertEffect _ epoch => some epoch
  | .setSessionDeadline _ epoch => some epoch
  | .setFlowFingerprint _ epoch => some epoch
  | _ => none

/-- Whether a call is the keyed merge, the one operation that reads before its script. -/
def isWrite : StoreCall → Bool
  | .write _ _ => true
  | _ => false

/-- The DataPoints a call stores. -/
def dataPoints : StoreCall → List BaseDataPoint
  | .write dataPoints _ => dataPoints
  | .applyResolved added updated _ => added ++ updated
  | _ => []

end StoreCall

/-- A reply with the state after it; an operation that raises leaves the state as it was. -/
def keepOnError {State Reply : Type} (state : State) :
    Except OrchestrationError (Reply × State) → Except OrchestrationError Reply × State
  | .error error => (.error error, state)
  | .ok (reply, state) => (.ok reply, state)

/-- A call of the in-memory store. -/
def SessionState.perform (state : SessionState) :
    StoreCall → Except OrchestrationError StoreReply × SessionState
  | .write dataPoints epoch =>
    keepOnError state ((state.write dataPoints epoch).map (Prod.map .revision id))
  | .applyResolved added updated epoch =>
    keepOnError state ((state.applyResolved added updated epoch).map (Prod.map .revision id))
  | .setWatermark operatorId revision epoch =>
    keepOnError state ((state.setWatermark operatorId revision epoch).map (Prod.mk .done))
  | .claimEffect effectKey epoch reclaimStale =>
    keepOnError state ((state.claimEffect effectKey epoch reclaimStale).map (Prod.map .claim id))
  | .commitEffect effectKey epoch =>
    keepOnError state ((state.commitEffect effectKey epoch).map (Prod.mk .done))
  | .revertEffect effectKey epoch =>
    keepOnError state ((state.revertEffect effectKey epoch).map (Prod.mk .done))
  | .setSessionDeadline deadline epoch =>
    keepOnError state ((state.setSessionDeadline deadline epoch).map (Prod.mk .done))
  | .setFlowFingerprint fingerprint epoch =>
    keepOnError state ((state.setFlowFingerprint fingerprint epoch).map (Prod.mk .done))
  | .snapshot => (.ok (.view state.snapshot), state)
  | .revision => (.ok (.revision state.revision), state)
  | .changeSetSince since => (.ok (.changes (state.changeSetSince since)), state)
  | .getWatermark operatorId => (.ok (.watermark (state.getWatermark operatorId)), state)
  | .getEffectState effectKey =>
    (.ok (.effectState ((state.getEffectState effectKey).map EffectState.text)), state)
  | .getSessionDeadline => (.ok (.deadline state.deadline), state)
  | .getFlowFingerprint => (.ok (.fingerprint state.flowFingerprint), state)

/-- A read of a Redis session; it has no command of its own to fail here. -/
def RedisSession.read (session : RedisSession) (reply : Except OrchestrationError StoreReply) :
    Except RedisError StoreReply × RedisSession :=
  (reply.mapError .orchestration, session)

/-- A call of the Redis store, of which one command may fail. -/
def RedisSession.perform (wire : Wire) (sessionId : SessionId) (session : RedisSession)
    (failing : Option RedisCommand) : StoreCall → Except RedisError StoreReply × RedisSession
  | .write dataPoints epoch =>
    Prod.map (Except.map .revision) id (session.write wire sessionId dataPoints epoch failing)
  | .applyResolved added updated epoch =>
    Prod.map (Except.map .revision) id
      (session.applyResolved wire sessionId added updated epoch failing)
  | .setWatermark operatorId revision epoch =>
    Prod.map (Except.map fun _ => .done) id
      (session.setWatermark sessionId operatorId revision epoch failing)
  | .claimEffect effectKey epoch reclaimStale =>
    Prod.map (Except.map .claim) id
      (session.claimEffect sessionId effectKey epoch reclaimStale failing)
  | .commitEffect effectKey epoch =>
    Prod.map (Except.map fun _ => .done) id (session.commitEffect sessionId effectKey epoch failing)
  | .revertEffect effectKey epoch =>
    Prod.map (Except.map fun _ => .done) id (session.revertEffect sessionId effectKey epoch failing)
  | .setSessionDeadline deadline epoch =>
    Prod.map (Except.map fun _ => .done) id
      (session.setSessionDeadline wire sessionId deadline epoch failing)
  | .setFlowFingerprint fingerprint epoch =>
    Prod.map (Except.map fun _ => .done) id
      (session.setFlowFingerprint sessionId fingerprint epoch failing)
  | .snapshot => session.read ((session.snapshot wire).map .view)
  | .revision => session.read (.ok (.revision session.rev))
  | .changeSetSince since => session.read ((session.changeSetSince wire since).map .changes)
  | .getWatermark operatorId => session.read (.ok (.watermark (session.getWatermark operatorId)))
  | .getEffectState effectKey => session.read (.ok (.effectState (session.getEffectState effectKey)))
  | .getSessionDeadline => session.read (.ok (.deadline (session.getSessionDeadline wire)))
  | .getFlowFingerprint => session.read (.ok (.fingerprint session.getFlowFingerprint))

/-- Two replies that say the same: DataPoints in any order, anything else equal. -/
inductive StoreReply.Same : StoreReply → StoreReply → Prop where
  | equal (reply) : Same reply reply
  | view {a b} : a.Perm b → Same (.view a) (.view b)
  | changes {a b} : ChangeSet.Same a b → Same (.changes a) (.changes b)

/-- Two outcomes that are the same: the same reply, or a `StaleEpochError` for the epoch of the
call. The message of the one names the fence, that of the other the session. -/
inductive SameOutcome (sessionId : SessionId) (call : StoreCall) (fence : Epoch) :
    Except OrchestrationError StoreReply → Except RedisError StoreReply → Prop where
  | reply {a b} : StoreReply.Same a b → SameOutcome sessionId call fence (.ok a) (.ok b)
  | stale {epoch} : call.epoch? = some epoch → SameOutcome sessionId call fence
      (.error (.staleEpoch s!"epoch {epoch} is stale (current {fence})"))
      (.error (.orchestration (.staleEpoch s!"epoch {epoch} is stale for session {sessionId}")))

/-! ### Effect marks -/

theorem effectPendingState_ne_committed (epoch : Epoch) :
  effectPendingState epoch ≠ effectCommitted
  := by
  intro h
  have hhead := congrArg (fun s => s.toList.head?) h
  simp [effectPendingState, effectCommitted] at hhead

theorem text_eq_pending_iff {effect : EffectState} {epoch : Epoch} :
  effect.text = "pending:" ++ toString epoch ↔ effect = .pending epoch
  := by
  cases effect with
  | pending epoch' =>
      rw [EffectState.text, effectPendingState, String.append_right_inj, Readable.natText_inj,
        EffectState.pending.injEq]
  | committed =>
      simp only [EffectState.text, reduceCtorEq, iff_false]
      apply (effectPendingState_ne_committed epoch).symm

theorem text_eq_committed_iff {effect : EffectState} :
  effect.text = "committed" ↔ effect = .committed
  := by
  cases effect with
  | pending epoch =>
      simp only [EffectState.text, reduceCtorEq, iff_false]
      apply effectPendingState_ne_committed
  | committed => simp only [EffectState.text, effectCommitted]

/-! ### Rejected calls -/

/-- A guarded call of the in-memory store with a stale epoch is rejected. -/
theorem SessionState.perform_of_lt {state : SessionState} {call : StoreCall} {epoch : Epoch}
    (hcall : call.epoch? = some epoch) (h : epoch < state.maxEpoch) :
  state.perform call
    = (.error (.staleEpoch s!"epoch {epoch} is stale (current {state.maxEpoch})"), state)
  := by
  cases call <;> cases hcall
  case write => rw [perform, write_of_lt h]; rfl
  case applyResolved => rw [perform, applyResolved_of_lt h]; rfl
  case setWatermark => rw [perform, setWatermark, guardEpoch_of_lt h]; rfl
  case claimEffect => rw [perform, claimEffect, guardEpoch_of_lt h]; rfl
  case commitEffect => rw [perform, commitEffect, guardEpoch_of_lt h]; rfl
  case revertEffect => rw [perform, revertEffect, guardEpoch_of_lt h]; rfl
  case setSessionDeadline => rw [perform, setSessionDeadline, guardEpoch_of_lt h]; rfl
  case setFlowFingerprint => rw [perform, setFlowFingerprint, guardEpoch_of_lt h]; rfl

/-! ### The script of a call -/

namespace StoreCall

open RedisSession in
/-- The script a guarded call runs. A `write` has one if the DataPoints it has read parse. -/
def script? (wire : Wire) (session : RedisSession) :
    StoreCall → Option (Epoch → RedisSession → ℤ × RedisSession)
  | .write dataPoints _ => (writeTriples wire session.dp dataPoints).toOption.map writeScript
  | .applyResolved added updated _ => some (writeScript (resolvedTriples wire added updated))
  | .setWatermark operatorId watermark _ => some (watermarkScript operatorId watermark)
  | .claimEffect effectKey _ reclaimStale => some (claimEffectScript effectKey reclaimStale)
  | .commitEffect effectKey _ => some (commitEffectScript effectKey)
  | .revertEffect effectKey _ => some (revertEffectScript effectKey)
  | .setSessionDeadline deadline _ => some (metaScript "deadline" (wire.isoformat deadline))
  | .setFlowFingerprint fingerprint _ => some (metaScript "flow_fingerprint" fingerprint)
  | _ => none

/-- What a guarded call returns for the result of its script. -/
def replyOf : StoreCall → ℤ → StoreReply
  | .write _ _, result => .revision result.toNat
  | .applyResolved _ _ _, result => .revision result.toNat
  | .claimEffect _ _ _, result => .claim (RedisSession.claimResult result)
  | _, _ => .done

end StoreCall

namespace RedisSession

variable {session : RedisSession} {sessionId : SessionId} {call : StoreCall} {epoch : Epoch}
variable {script : Epoch → RedisSession → ℤ × RedisSession} {failing : Option RedisCommand}

/-- Mapping a result and then the reply made of it is mapping the result once. -/
theorem map_map_result {Reply : Type} (run : Except RedisError ℤ × RedisSession)
    (f : ℤ → Reply) (g : Reply → StoreReply) :
  Prod.map (Except.map g) id (run.1.map f, run.2) = Prod.map (Except.map (g ∘ f)) id run
  := by
  obtain ⟨result, session⟩ := run
  cases result with
  | error error => rfl
  | ok result => rfl

/-- A guarded call is its script. -/
theorem perform_eq_runScript (hcall : call.epoch? = some epoch)
    (hscript : call.script? wire session = some script)
    (hget : call.isWrite = true → failing ≠ some .hgetall) :
  session.perform wire sessionId failing call
    = Prod.map (Except.map call.replyOf) id
        (session.runScript sessionId epoch script failing)
  := by
  cases call with
  | write dataPoints epoch' =>
      cases hcall
      simp only [StoreCall.script?, Option.map_eq_some_iff] at hscript
      obtain ⟨triples, htriples, rfl⟩ := hscript
      cases hwrite : writeTriples wire session.dp dataPoints with
      | error error =>
          rw [hwrite] at htriples
          cases htriples
      | ok triples' =>
          rw [hwrite] at htriples
          cases htriples
          rw [perform, write, if_neg (hget rfl), hwrite]
          apply map_map_result _ Int.toNat
  | applyResolved added updated epoch' =>
      cases hcall
      cases hscript
      apply map_map_result _ Int.toNat
  | claimEffect effectKey epoch' reclaimStale =>
      cases hcall
      cases hscript
      apply map_map_result _ claimResult
  | _ => cases hcall <;> cases hscript <;> apply map_map_result _ (fun _ => ())

/-- Every script starts with the guard. -/
theorem script_eq_guarded (hscript : call.script? wire session = some script) (epoch : Epoch) :
  ∃ body, ∀ state : RedisSession, script epoch state = state.guarded epoch body
  := by
  cases call with
  | write dataPoints epoch' =>
      simp only [StoreCall.script?, Option.map_eq_some_iff] at hscript
      obtain ⟨triples, -, rfl⟩ := hscript
      exact ⟨_, fun _ => rfl⟩
  | _ => cases hscript <;> exact ⟨_, fun _ => rfl⟩

/-- A script changes nothing if its epoch is stale. -/
theorem script_of_lt (hscript : call.script? wire session = some script)
    {state : RedisSession} (h : epoch < state.epoch) :
  script epoch state = (-1, state)
  := by
  obtain ⟨body, hbody⟩ := script_eq_guarded hscript epoch
  rw [hbody, guarded_of_lt h]

end RedisSession

/-! ### Calls one after another -/

section

variable {Session Error : Type}
variable (perform : Session → StoreCall → Except Error StoreReply × Session)

/-- The session after the calls of a list. -/
def sessionAfter (session : Session) (calls : List StoreCall) : Session :=
  calls.foldl (fun session call => (perform session call).2) session

/-- The epoch a call is accepted with, if it is a guarded one that does not raise. -/
def acceptedEpoch (session : Session) (call : StoreCall) : Option Epoch :=
  match (perform session call).1 with
  | .ok _ => call.epoch?
  | .error _ => none

/-- The epochs accepted while the calls of a list are made. -/
def acceptedEpochs : Session → List StoreCall → List Epoch
  | _, [] => []
  | session, call :: calls =>
    (acceptedEpoch perform session call).toList ++ acceptedEpochs (perform session call).2 calls

end

/-! ### Accepted calls -/

namespace Stored

variable {entries : Entries} {session : RedisSession} {d : BaseDataPoint} {n : Revision}

/-- A triple and an entry stored at one DataPoint's identity, with the same DataPoint and the
same stamps. -/
theorem set (hwire : wire.FaithfulOn inPlay) (h : Stored wire inPlay entries session)
    (hd : inPlay d) {mode : WriteMode} {entry : Entry} (hentry : entry.dataPoint = d)
    (hupd : entry.updatedRev = n)
    (hadded : entry.addedRev = if mode = .a then n
      else ((entries.get? (identityKey d)).map Entry.addedRev).getD 0) :
  Stored wire inPlay (Dict.set entries (identityKey d) entry)
    (session.storeTriple n ⟨wire.identity d, mode, wire.dumps d⟩)
  := by
  have hsame : ∀ {d'}, inPlay d' →
      (wire.identity d = wire.identity d' ↔ identityKey d = identityKey d') :=
    fun hd' => hwire.identity_eq_iff hd hd'
  constructor
  · intro key e he
    rw [Dict.get?_set] at he
    split at he
    · cases he
      rw [hentry]
      apply hd
    · apply h.mem he
  · intro identity raw hraw
    rw [RedisSession.storeTriple, Dict.get?_set] at hraw
    split at hraw
    · use d
    · apply h.fields hraw
  · intro d' hd'
    rw [RedisSession.storeTriple, Dict.get?_set, Dict.get?_set, h.dp hd']
    simp only [hsame hd']
    split
    · rw [← hentry]
      rfl
    · rfl
  · intro d' hd'
    rw [Dict.get?_set]
    by_cases hkey : identityKey d = identityKey d'
    · rw [if_pos hkey]
      simp only [RedisSession.storeTriple, Option.map_some, Option.getD_some, hadded]
      split
      · rw [Dict.get?_set, if_pos ((hsame hd').mpr hkey)]
        rfl
      · rw [h.added hd', hkey]
    · rw [if_neg hkey, ← h.added hd']
      simp only [RedisSession.storeTriple]
      split
      · rw [Dict.get?_set, if_neg (fun heq => hkey ((hsame hd').mp heq))]
      · rfl
  · intro d' hd'
    rw [RedisSession.storeTriple, Dict.get?_set, Dict.get?_set]
    simp only [hsame hd']
    split
    · rw [← hupd]
      rfl
    · apply h.upd hd'

theorem applyAdded (hwire : wire.FaithfulOn inPlay) (h : Stored wire inPlay entries session)
    (hd : inPlay d) :
  Stored wire inPlay (SessionState.applyAdded n entries d)
    (session.storeTriple n ⟨wire.identity d, .a, wire.dumps d⟩)
  := by
  apply h.set hwire hd rfl rfl
  rfl

theorem applyUpdated (hwire : wire.FaithfulOn inPlay) (h : Stored wire inPlay entries session)
    (hd : inPlay d) :
  Stored wire inPlay (SessionState.applyUpdated n entries d)
    (session.storeTriple n ⟨wire.identity d, .u, wire.dumps d⟩)
  := by
  apply h.set hwire hd rfl rfl
  cases entries.get? (identityKey d) with
  | none => rfl
  | some existing => rfl

/-- Two loops over the same DataPoints that keep what is stored the same do so together. -/
theorem foldl {memory : Entries → BaseDataPoint → Entries} {triple : BaseDataPoint → Triple}
    (hstep : ∀ entries session d, Stored wire inPlay entries session → inPlay d →
      Stored wire inPlay (memory entries d) (session.storeTriple n (triple d)))
    {dataPoints : List BaseDataPoint} (hmem : ∀ d ∈ dataPoints, inPlay d)
    (h : Stored wire inPlay entries session) :
  Stored wire inPlay (dataPoints.foldl memory entries)
    ((dataPoints.map triple).foldl (RedisSession.storeTriple n) session)
  := by
  induction dataPoints generalizing entries session with
  | nil => apply h
  | cons d dataPoints ih =>
      apply ih (fun d' hd' => hmem d' (List.mem_cons_of_mem d hd'))
      apply hstep entries session d h (hmem d List.mem_cons_self)

end Stored

/-- The write script's loop changes only the DataPoints and their stamps. -/
theorem RedisSession.foldl_storeTriple (n : Revision) (triples : List Triple)
    (session : RedisSession) :
  triples.foldl (RedisSession.storeTriple n) session
    = { session with
        dp := (triples.foldl (RedisSession.storeTriple n) session).dp
        added := (triples.foldl (RedisSession.storeTriple n) session).added
        upd := (triples.foldl (RedisSession.storeTriple n) session).upd }
  := by
  induction triples generalizing session with
  | nil => rfl
  | cons triple triples ih =>
      rw [List.foldl_cons, ih]
      rfl

namespace Corresponds

variable {state : SessionState} {session : RedisSession} {epoch : Epoch}

/-- A call whose script is accepted in both stores returns the same and leads to corresponding
states. -/
def Accepts (wire : Wire) (inPlay : BaseDataPoint → Prop) (state : SessionState)
    (session : RedisSession) (call : StoreCall) (epoch : Epoch) : Prop :=
  ∃ script result state' session',
    call.script? wire session = some script
      ∧ script epoch session = (result, session') ∧ result ≠ -1
      ∧ state.perform call = (.ok (call.replyOf result), state') ∧ state'.maxEpoch = epoch
      ∧ Corresponds wire inPlay state' session'

theorem Accepts.intro {call : StoreCall} {script : Epoch → RedisSession → ℤ × RedisSession}
    {result : ℤ} {state' : SessionState} {session' : RedisSession}
    (hscript : call.script? wire session = some script)
    (hrun : script epoch session = (result, session')) (hresult : result ≠ -1)
    (hperform : state.perform call = (.ok (call.replyOf result), state'))
    (hepoch : state'.maxEpoch = epoch) (hcorresponds : Corresponds wire inPlay state' session') :
  Accepts wire inPlay state session call epoch
  := ⟨script, result, state', session', hscript, hrun, hresult, hperform, hepoch, hcorresponds⟩

theorem accept (h : Corresponds wire inPlay state session) (epoch : Epoch) :
  Corresponds wire inPlay { state with maxEpoch := epoch } { session with epoch := epoch }
  := { h with epoch := rfl, stored := { h.stored with } }

theorem natCast_ne_neg_one (n : ℕ) :
  (n : ℤ) ≠ -1
  := by
  omega

/-- Entries stored in both, with the revision and the epoch of an accepted batch. -/
theorem store (h : Corresponds wire inPlay state session) {entries : Entries} {n : Revision}
    {triples : List Triple} (hwellFormed : entries.WellFormed n)
    (hstored : Stored wire inPlay entries (triples.foldl (RedisSession.storeTriple n)
      { session with epoch := epoch, rev := n })) :
  Corresponds wire inPlay { state with entries := entries, revision := n, maxEpoch := epoch }
    (triples.foldl (RedisSession.storeTriple n) { session with epoch := epoch, rev := n })
  := by
  have hframe := RedisSession.foldl_storeTriple n triples { session with epoch := epoch, rev := n }
  constructor
  · apply hwellFormed
  · apply hstored
  · rw [hframe]
  · rw [hframe]
  · rw [hframe]
    apply h.wm
  · rw [hframe]
    apply h.fx
  · rw [hframe]
    apply h.deadline
  · rw [hframe]
    apply h.fingerprint

/-- The DataPoints of a session do not depend on its epoch and revision. -/
theorem stored_setRev (h : Corresponds wire inPlay state session) (epoch : Epoch) (n : Revision) :
  Stored wire inPlay state.entries { session with epoch := epoch, rev := n }
  := { h.stored with }

theorem accepts_applyResolved (hwire : wire.FaithfulOn inPlay)
    (h : Corresponds wire inPlay state session) (hle : state.maxEpoch ≤ epoch)
    {added updated : List BaseDataPoint} (hadded : ∀ d ∈ added, inPlay d)
    (hupdated : ∀ d ∈ updated, inPlay d) :
  Accepts wire inPlay state session (.applyResolved added updated epoch) epoch
  := by
  have hepoch : session.epoch ≤ epoch := by
    rw [h.epoch]
    apply hle
  cases hbatch : added.isEmpty && updated.isEmpty with
  | true =>
      simp only [Bool.and_eq_true, List.isEmpty_iff] at hbatch
      obtain ⟨rfl, rfl⟩ := hbatch
      use RedisSession.writeScript [], session.rev, { state with maxEpoch := epoch },
        { session with epoch := epoch }
      refine ⟨rfl, RedisSession.writeScript_nil hepoch, natCast_ne_neg_one _, ?_, rfl, h.accept epoch⟩
      rw [SessionState.perform, SessionState.applyResolved_nil hle, h.rev]
      rfl
  | false =>
      have hempty : (RedisSession.resolvedTriples wire added updated).isEmpty = false := by
        simpa [RedisSession.resolvedTriples] using hbatch
      have happly := SessionState.applyResolved_of_le hle hbatch
      have hscript := RedisSession.writeScript_of_le hepoch hempty
      rw [h.rev] at hscript
      apply Accepts.intro rfl hscript (natCast_ne_neg_one _)
      · rw [SessionState.perform, happly]
        rfl
      · rfl
      · apply h.store
        · apply SessionState.applyResolved_wellFormed h.wellFormed happly
        · rw [RedisSession.resolvedTriples, List.foldl_append]
          apply Stored.foldl _ hupdated
          · apply Stored.foldl _ hadded
            · apply h.stored_setRev
            · intro entries session d hs hd
              apply hs.applyAdded hwire hd
          · intro entries session d hs hd
            apply hs.applyUpdated hwire hd

theorem accepts_setWatermark (h : Corresponds wire inPlay state session)
    (hle : state.maxEpoch ≤ epoch) (operatorId : OperatorId) (revision : Revision) :
  Accepts wire inPlay state session (.setWatermark operatorId revision epoch) epoch
  := by
  have hepoch : session.epoch ≤ epoch := by
    rw [h.epoch]
    apply hle
  apply Accepts.intro rfl (RedisSession.guarded_of_le hepoch _) (by decide)
  · rw [SessionState.perform, SessionState.setWatermark, SessionState.guardEpoch_of_le hle]
    rfl
  · rfl
  · refine { h.accept epoch with wm := ?_, stored := { h.stored with } }
    intro operatorId'
    rw [Dict.get?_set, Dict.get?_set, h.wm]

theorem accepts_setSessionDeadline (h : Corresponds wire inPlay state session)
    (hle : state.maxEpoch ≤ epoch) (deadline : Timestamp) :
  Accepts wire inPlay state session (.setSessionDeadline deadline epoch) epoch
  := by
  have hepoch : session.epoch ≤ epoch := by
    rw [h.epoch]
    apply hle
  apply Accepts.intro rfl (RedisSession.guarded_of_le hepoch _) (show (0 : ℤ) ≠ -1 by decide)
  · rw [SessionState.perform, SessionState.setSessionDeadline, SessionState.guardEpoch_of_le hle]
    rfl
  · rfl
  · refine { h.accept epoch with deadline := ?_, fingerprint := ?_, stored := { h.stored with } }
    · rw [Dict.get?_set, if_pos rfl]
      rfl
    · rw [Dict.get?_set, if_neg (by decide)]
      apply h.fingerprint

theorem accepts_setFlowFingerprint (h : Corresponds wire inPlay state session)
    (hle : state.maxEpoch ≤ epoch) (fingerprint : String) :
  Accepts wire inPlay state session (.setFlowFingerprint fingerprint epoch) epoch
  := by
  have hepoch : session.epoch ≤ epoch := by
    rw [h.epoch]
    apply hle
  apply Accepts.intro rfl (RedisSession.guarded_of_le hepoch _) (show (0 : ℤ) ≠ -1 by decide)
  · rw [SessionState.perform, SessionState.setFlowFingerprint, SessionState.guardEpoch_of_le hle]
    rfl
  · rfl
  · refine { h.accept epoch with deadline := ?_, fingerprint := ?_, stored := { h.stored with } }
    · rw [Dict.get?_set, if_neg (by decide)]
      apply h.deadline
    · rw [Dict.get?_set, if_pos rfl]

/-- One effect's mark set in both. -/
theorem setEffect (h : Corresponds wire inPlay state session) (effectKey : String)
    (effect : EffectState) :
  Corresponds wire inPlay { state with effects := state.effects.set effectKey effect }
    { session with fx := session.fx.set effectKey effect.text }
  := by
  refine { h with fx := ?_, stored := { h.stored with } }
  intro effectKey'
  rw [Dict.get?_set, Dict.get?_set, h.fx]
  split
  · rfl
  · rfl

/-- One effect's mark removed in both. -/
theorem eraseEffect (h : Corresponds wire inPlay state session) (effectKey : String) :
  Corresponds wire inPlay { state with effects := state.effects.erase effectKey }
    { session with fx := session.fx.erase effectKey }
  := by
  refine { h with fx := ?_, stored := { h.stored with } }
  intro effectKey'
  rw [Dict.get?_erase, Dict.get?_erase, h.fx]
  split
  · rfl
  · rfl

/-- An effect is marked pending by an epoch in one store exactly when it is in the other. -/
theorem fx_eq_pending_iff (h : Corresponds wire inPlay state session) (effectKey : String)
    (epoch : Epoch) :
  session.fx.get? effectKey = some ("pending:" ++ toString epoch)
    ↔ state.effects.get? effectKey = some (.pending epoch)
  := by
  rw [h.fx, Option.map_eq_some_iff]
  constructor
  · rintro ⟨effect, heffect, htext⟩
    rw [heffect, text_eq_pending_iff.mp htext]
  · intro heffect
    use .pending epoch, heffect
    rfl

theorem accepts_claimEffect (h : Corresponds wire inPlay state session)
    (hle : state.maxEpoch ≤ epoch) (effectKey : String) (reclaimStale : Bool) :
  Accepts wire inPlay state session (.claimEffect effectKey epoch reclaimStale) epoch
  := by
  have hepoch : session.epoch ≤ epoch := by
    rw [h.epoch]
    apply hle
  have hfx := h.fx effectKey
  cases hstored : state.effects.get? effectKey with
  | none =>
      rw [hstored] at hfx
      have hscript : RedisSession.claimEffectScript effectKey reclaimStale epoch session
          = (1, { session with
              epoch := epoch, fx := session.fx.set effectKey (effectPendingState epoch) }) := by
        rw [RedisSession.claimEffectScript, RedisSession.guarded_of_le hepoch]
        simp only [hfx, Option.map_none]
        rfl
      apply Accepts.intro rfl hscript (by decide)
      · rw [SessionState.perform, SessionState.claimEffect, SessionState.guardEpoch_of_le hle]
        simp only [bind, Except.bind, hstored]
        rfl
      · rfl
      · apply (h.accept epoch).setEffect effectKey (.pending epoch)
  | some effect =>
      rw [hstored] at hfx
      rw [Option.map_some] at hfx
      by_cases hcommitted : effect = .committed
      · have hscript : RedisSession.claimEffectScript effectKey reclaimStale epoch session
            = (2, { session with epoch := epoch }) := by
          rw [RedisSession.claimEffectScript, RedisSession.guarded_of_le hepoch]
          simp only [hfx, text_eq_committed_iff, hcommitted, if_true]
        apply Accepts.intro rfl hscript (by decide)
        · rw [SessionState.perform, SessionState.claimEffect, SessionState.guardEpoch_of_le hle]
          simp only [bind, Except.bind, hstored, hcommitted, if_true]
          rfl
        · rfl
        · apply h.accept epoch
      by_cases hpending : effect = .pending epoch
      · have hscript : RedisSession.claimEffectScript effectKey reclaimStale epoch session
            = (3, { session with epoch := epoch }) := by
          rw [RedisSession.claimEffectScript, RedisSession.guarded_of_le hepoch]
          simp only [hfx, text_eq_committed_iff, text_eq_pending_iff, hpending, reduceCtorEq,
            if_false, if_true]
        apply Accepts.intro rfl hscript (by decide)
        · rw [SessionState.perform, SessionState.claimEffect, SessionState.guardEpoch_of_le hle]
          simp only [bind, Except.bind, hstored, hpending, if_true]
          rfl
        · rfl
        · apply h.accept epoch
      cases reclaimStale with
      | true =>
          have hscript : RedisSession.claimEffectScript effectKey true epoch session
              = (1, { session with
                  epoch := epoch, fx := session.fx.set effectKey (effectPendingState epoch) }) := by
            rw [RedisSession.claimEffectScript, RedisSession.guarded_of_le hepoch]
            simp only [hfx, text_eq_committed_iff, text_eq_pending_iff, hcommitted, hpending,
              if_false, if_true]
            rfl
          apply Accepts.intro rfl hscript (by decide)
          · rw [SessionState.perform, SessionState.claimEffect, SessionState.guardEpoch_of_le hle]
            simp only [bind, Except.bind, hstored, hcommitted, hpending, if_false, if_true]
            rfl
          · rfl
          · apply (h.accept epoch).setEffect effectKey (.pending epoch)
      | false =>
          have hscript : RedisSession.claimEffectScript effectKey false epoch session
              = (4, { session with epoch := epoch }) := by
            rw [RedisSession.claimEffectScript, RedisSession.guarded_of_le hepoch]
            simp only [hfx, text_eq_committed_iff, text_eq_pending_iff, hcommitted, hpending,
              if_false, Bool.false_eq_true]
          apply Accepts.intro rfl hscript (by decide)
          · rw [SessionState.perform, SessionState.claimEffect, SessionState.guardEpoch_of_le hle]
            simp only [bind, Except.bind, hstored, hcommitted, hpending, if_false,
              Bool.false_eq_true]
            rfl
          · rfl
          · apply h.accept epoch

theorem accepts_commitEffect (h : Corresponds wire inPlay state session)
    (hle : state.maxEpoch ≤ epoch) (effectKey : String) :
  Accepts wire inPlay state session (.commitEffect effectKey epoch) epoch
  := by
  have hepoch : session.epoch ≤ epoch := by
    rw [h.epoch]
    apply hle
  have hpending := h.fx_eq_pending_iff effectKey epoch
  by_cases hown : state.effects.get? effectKey = some (.pending epoch)
  · have hscript : RedisSession.commitEffectScript effectKey epoch session
        = (0, { session with epoch := epoch, fx := session.fx.set effectKey effectCommitted }) := by
      rw [RedisSession.commitEffectScript, RedisSession.guarded_of_le hepoch, if_pos (hpending.mpr hown)]
      rfl
    apply Accepts.intro rfl hscript (by decide)
    · rw [SessionState.perform, SessionState.commitEffect, SessionState.guardEpoch_of_le hle]
      simp only [bind, Except.bind, hown, true_or, if_true]
      rfl
    · rfl
    · apply (h.accept epoch).setEffect effectKey .committed
  · have hscript : RedisSession.commitEffectScript effectKey epoch session
        = (0, { session with epoch := epoch }) := by
      rw [RedisSession.commitEffectScript, RedisSession.guarded_of_le hepoch,
        if_neg (fun heq => hown (hpending.mp heq))]
    apply Accepts.intro rfl hscript (by decide)
    · rw [SessionState.perform, SessionState.commitEffect, SessionState.guardEpoch_of_le hle]
      simp only [bind, Except.bind, hown, false_or]
      split
      · rename_i hcommitted
        rw [Dict.set_eq_self hcommitted]
        rfl
      · rfl
    · rfl
    · apply h.accept epoch

theorem accepts_revertEffect (h : Corresponds wire inPlay state session)
    (hle : state.maxEpoch ≤ epoch) (effectKey : String) :
  Accepts wire inPlay state session (.revertEffect effectKey epoch) epoch
  := by
  have hepoch : session.epoch ≤ epoch := by
    rw [h.epoch]
    apply hle
  have hpending := h.fx_eq_pending_iff effectKey epoch
  by_cases hown : state.effects.get? effectKey = some (.pending epoch)
  · have hscript : RedisSession.revertEffectScript effectKey epoch session
        = (0, { session with epoch := epoch, fx := session.fx.erase effectKey }) := by
      rw [RedisSession.revertEffectScript, RedisSession.guarded_of_le hepoch, if_pos (hpending.mpr hown)]
    apply Accepts.intro rfl hscript (by decide)
    · rw [SessionState.perform, SessionState.revertEffect, SessionState.guardEpoch_of_le hle]
      simp only [bind, Except.bind, hown, if_true]
      rfl
    · rfl
    · apply (h.accept epoch).eraseEffect
  · have hscript : RedisSession.revertEffectScript effectKey epoch session
        = (0, { session with epoch := epoch }) := by
      rw [RedisSession.revertEffectScript, RedisSession.guarded_of_le hepoch,
        if_neg (fun heq => hown (hpending.mp heq))]
    apply Accepts.intro rfl hscript (by decide)
    · rw [SessionState.perform, SessionState.revertEffect, SessionState.guardEpoch_of_le hle]
      simp only [bind, Except.bind, hown, if_false]
      rfl
    · rfl
    · apply h.accept epoch

/-! ### One call of both stores -/

/-- A call made in both stores: the outcomes are the same, the next states correspond, a
rejected call changes neither state, and the fence is the maximum of where it was and of the
epoch of the call, if that was accepted. -/
structure SameStep (wire : Wire) (inPlay : BaseDataPoint → Prop) (sessionId : SessionId)
    (state : SessionState) (session : RedisSession) (call : StoreCall) : Prop where
  outcome : SameOutcome sessionId call state.maxEpoch (state.perform call).1
    (session.perform wire sessionId none call).1
  next : Corresponds wire inPlay (state.perform call).2 (session.perform wire sessionId none call).2
  rejected : ∀ error, (state.perform call).1 = .error error →
    (state.perform call).2 = state ∧ (session.perform wire sessionId none call).2 = session
  fence : (state.perform call).2.maxEpoch
    = (acceptedEpoch SessionState.perform state call).toList.foldl max state.maxEpoch

/-- A guarded call that both stores accept whenever its epoch is not stale has the same outcome
in both. -/
theorem guarded_same (h : Corresponds wire inPlay state session) (sessionId : SessionId)
    {call : StoreCall} (hcall : call.epoch? = some epoch)
    (hscript : ∃ script, call.script? wire session = some script)
    (haccepts : state.maxEpoch ≤ epoch → Accepts wire inPlay state session call epoch) :
  SameStep wire inPlay sessionId state session call
  := by
  rcases Nat.lt_or_ge epoch state.maxEpoch with hlt | hle
  · obtain ⟨script, hscript⟩ := hscript
    have hstale := RedisSession.script_of_lt hscript (h.epoch.symm ▸ hlt)
    have hmemory := SessionState.perform_of_lt hcall hlt
    have hredis : session.perform wire sessionId none call = _ :=
      RedisSession.perform_eq_runScript hcall hscript (fun _ => by decide)
    rw [RedisSession.runScript_stale (by decide) hstale] at hredis
    constructor
    · rw [hmemory, hredis]
      apply SameOutcome.stale hcall
    · rw [hmemory, hredis]
      apply h
    · intro error herror
      rw [hmemory, hredis]
      constructor
      · rfl
      · rfl
    · rw [acceptedEpoch, hmemory]
      rfl
  · obtain ⟨script, result, state', session', hscript, hrun, hresult, hmemory, hepoch, hnext⟩ :=
      haccepts hle
    have hredis : session.perform wire sessionId none call = _ :=
      RedisSession.perform_eq_runScript hcall hscript (fun _ => by decide)
    rw [RedisSession.runScript_accepted hrun hresult (by decide)] at hredis
    constructor
    · rw [hmemory, hredis]
      apply SameOutcome.reply (.equal _)
    · rw [hmemory, hredis]
      apply hnext
    · intro error herror
      rw [hmemory] at herror
      cases herror
    · rw [acceptedEpoch, hmemory, hepoch]
      simp only [hcall, Option.toList_some, List.foldl_cons, List.foldl_nil]
      rw [max_eq_right hle]

/-- Every call but the keyed merge is accepted in both stores whenever its epoch is not stale. -/
theorem accepts_of_not_write (hwire : wire.FaithfulOn inPlay)
    (h : Corresponds wire inPlay state session) {call : StoreCall} (hwrite : call.isWrite = false)
    (hmem : ∀ d ∈ call.dataPoints, inPlay d) (hcall : call.epoch? = some epoch)
    (hle : state.maxEpoch ≤ epoch) :
  Accepts wire inPlay state session call epoch
  := by
  cases call with
  | write dataPoints epoch' => cases hwrite
  | applyResolved added updated epoch' =>
      cases hcall
      apply h.accepts_applyResolved hwire hle
      · intro d hd
        exact hmem d (List.mem_append_left updated hd)
      · intro d hd
        exact hmem d (List.mem_append_right added hd)
  | setWatermark operatorId watermark epoch' =>
      cases hcall
      apply h.accepts_setWatermark hle
  | claimEffect effectKey epoch' reclaimStale =>
      cases hcall
      apply h.accepts_claimEffect hle
  | commitEffect effectKey epoch' =>
      cases hcall
      apply h.accepts_commitEffect hle
  | revertEffect effectKey epoch' =>
      cases hcall
      apply h.accepts_revertEffect hle
  | setSessionDeadline deadline epoch' =>
      cases hcall
      apply h.accepts_setSessionDeadline hle
  | setFlowFingerprint fingerprint epoch' =>
      cases hcall
      apply h.accepts_setFlowFingerprint hle
  | _ => cases hcall

/-- A read returns the same in both stores, and changes neither. -/
theorem read_same (hwire : wire.FaithfulOn inPlay) (h : Corresponds wire inPlay state session)
    (sessionId : SessionId) {call : StoreCall} (hcall : call.epoch? = none) :
  SameOutcome sessionId call state.maxEpoch (state.perform call).1
      (session.perform wire sessionId none call).1
    ∧ (state.perform call).2 = state ∧ (session.perform wire sessionId none call).2 = session
  := by
  cases call with
  | snapshot =>
      obtain ⟨view, hview, hperm⟩ := h.snapshot_eq hwire
      refine ⟨?_, rfl, rfl⟩
      rw [RedisSession.perform, hview]
      exact .reply (.view hperm.symm)
  | changeSetSince since =>
      obtain ⟨changes, hchanges, hsame⟩ := h.changeSetSince_eq hwire since
      refine ⟨?_, rfl, rfl⟩
      rw [RedisSession.perform, hchanges]
      exact .reply (.changes ⟨hsame.1.symm, hsame.2.symm⟩)
  | revision =>
      refine ⟨?_, rfl, rfl⟩
      rw [RedisSession.perform, h.rev]
      exact .reply (.equal _)
  | getWatermark operatorId =>
      refine ⟨?_, rfl, rfl⟩
      rw [RedisSession.perform, RedisSession.getWatermark, h.wm]
      exact .reply (.equal _)
  | getEffectState effectKey =>
      refine ⟨?_, rfl, rfl⟩
      rw [RedisSession.perform, RedisSession.getEffectState, h.fx]
      exact .reply (.equal _)
  | getSessionDeadline =>
      refine ⟨?_, rfl, rfl⟩
      rw [RedisSession.perform, RedisSession.getSessionDeadline, h.deadline, Option.map_map]
      have hround : wire.fromisoformat ∘ wire.isoformat = id := by
        funext timestamp
        apply hwire.fromisoformat_isoformat
      rw [hround, Option.map_id]
      exact .reply (.equal _)
  | getFlowFingerprint =>
      refine ⟨?_, rfl, rfl⟩
      rw [RedisSession.perform, RedisSession.getFlowFingerprint, h.fingerprint]
      exact .reply (.equal _)
  | _ => cases hcall

/-- Every call but the keyed merge is the same step in corresponding states. -/
theorem perform_same (hwire : wire.FaithfulOn inPlay) (h : Corresponds wire inPlay state session)
    (sessionId : SessionId) {call : StoreCall} (hwrite : call.isWrite = false)
    (hmem : ∀ d ∈ call.dataPoints, inPlay d) :
  SameStep wire inPlay sessionId state session call
  := by
  cases hcall : call.epoch? with
  | none =>
      obtain ⟨hsame, hstate, hsession⟩ := h.read_same hwire sessionId hcall
      constructor
      · apply hsame
      · rw [hstate, hsession]
        apply h
      · intro error herror
        exact ⟨hstate, hsession⟩
      · have hnone : acceptedEpoch SessionState.perform state call = none := by
          rw [acceptedEpoch, hcall]
          split
          · rfl
          · rfl
        rw [hnone, hstate]
        rfl
  | some epoch =>
      apply h.guarded_same sessionId hcall
      · cases call with
        | write dataPoints epoch' => cases hwrite
        | _ => cases hcall <;> exact ⟨_, rfl⟩
      · apply h.accepts_of_not_write hwire hwrite hmem hcall

end Corresponds

/-! ### A wire for notes -/

/-- A note seen at a time. -/
def sighting (at' : Timestamp) : BaseDataPoint where
  type := "note"
  value := .str "a"
  retrievedBy := "op"
  firstRetrieved := at'
  lastRetrieved := at'
  hashed := .str "a"
  hashable := makeHashable_str "a"

/-- The note seen at two times, each alone and both. -/
def IsNote (d : BaseDataPoint) : Prop :=
  d = sighting 1 ∨ d = sighting 2 ∨ d = (sighting 1).reobserved 2

/-- The JSON of a note. -/
def noteJson (first last : String) : String :=
  "\x7b\"type\":\"note\",\"value\":\"a\",\"retrieved_by\":\"op\",\"first_retrieved\":\""
    ++ first ++ "\",\"last_retrieved\":\"" ++ last ++ "\"\x7d"

/-- The time at one microsecond, and at two. -/
def timeText (timestamp : Timestamp) : String :=
  if timestamp = 1 then "1970-01-01T00:00:00.000001Z" else "1970-01-01T00:00:00.000002Z"

/-- A timestamp as a signed number. -/
def stampText : Timestamp → String
  | .ofNat n => "+" ++ toString n
  | .negSucc n => "-" ++ toString n

/-- The timestamp of a signed number. -/
def readStamp (text : String) : Timestamp :=
  match text.toList with
  | '+' :: digits => .ofNat (Nat.ofDigitChars 10 digits 0)
  | _ :: digits => .negSucc (Nat.ofDigitChars 10 digits 0)
  | [] => 0

theorem readStamp_stampText (timestamp : Timestamp) :
  readStamp (stampText timestamp) = timestamp
  := by
  cases timestamp with
  | ofNat n =>
      simp only [readStamp, stampText, String.toList_append, Nat.toString_eq_repr, Nat.toList_repr]
      exact congrArg Int.ofNat Nat.ofDigitChars_ten_toDigits
  | negSucc n =>
      simp only [readStamp, stampText, String.toList_append, Nat.toString_eq_repr, Nat.toList_repr]
      exact congrArg Int.negSucc Nat.ofDigitChars_ten_toDigits

/-- A wire that carries notes. -/
def noteWire : Wire where
  reprFloat _ := "0.0"
  isPrintable _ := true
  dumps d := noteJson (timeText d.firstRetrieved) (timeText d.lastRetrieved)
  parse raw :=
    if raw = noteJson (timeText 1) (timeText 1) then .ok (sighting 1)
    else if raw = noteJson (timeText 2) (timeText 2) then .ok (sighting 2)
    else .ok ((sighting 1).reobserved 2)
  isoformat := stampText
  fromisoformat := readStamp

theorem noteWire_faithful :
  noteWire.FaithfulOn IsNote
  := by
  constructor
  · rintro a b (rfl | rfl | rfl) (rfl | rfl | rfl) <;> decide
  · rintro a (rfl | rfl | rfl)
    · rfl
    · rfl
    · rfl
  · rintro a b (rfl | rfl | rfl) (rfl | rfl | rfl) <;> simp [IsNote, reobserved_of_le, sighting]
  · apply readStamp_stampText

/-! ### Both stores side by side -/

section

variable {state : SessionState} {session : RedisSession}

/-- Calls but keyed merges, made one after another in both stores, lead from corresponding
states to corresponding states. -/
theorem corresponds_after (hwire : wire.FaithfulOn inPlay)
    (h : Corresponds wire inPlay state session) (sessionId : SessionId) {calls : List StoreCall}
    (hcalls : ∀ call ∈ calls, call.isWrite = false ∧ ∀ d ∈ call.dataPoints, inPlay d) :
  Corresponds wire inPlay (sessionAfter SessionState.perform state calls)
    (sessionAfter (fun session => session.perform wire sessionId none) session calls)
  := by
  induction calls generalizing state session with
  | nil => apply h
  | cons call calls ih =>
      obtain ⟨hwrite, hmem⟩ := hcalls call List.mem_cons_self
      apply ih
      · apply (h.perform_same hwire sessionId hwrite hmem).next
      · intro call' hcall'
        apply hcalls call' (List.mem_cons_of_mem call hcall')

/-- The fence after some calls is the maximum of where it was and of the epochs accepted. -/
theorem fence_after (hwire : wire.FaithfulOn inPlay) (h : Corresponds wire inPlay state session)
    (sessionId : SessionId) {calls : List StoreCall}
    (hcalls : ∀ call ∈ calls, call.isWrite = false ∧ ∀ d ∈ call.dataPoints, inPlay d) :
  (sessionAfter SessionState.perform state calls).maxEpoch
    = (acceptedEpochs SessionState.perform state calls).foldl max state.maxEpoch
  := by
  induction calls generalizing state session with
  | nil => rfl
  | cons call calls ih =>
      obtain ⟨hwrite, hmem⟩ := hcalls call List.mem_cons_self
      have hstep := h.perform_same hwire sessionId hwrite hmem
      rw [acceptedEpochs, List.foldl_append, ← hstep.fence]
      apply ih hstep.next
      intro call' hcall'
      apply hcalls call' (List.mem_cons_of_mem call hcall')

/-- Whatever operations but the keyed merge are made on corresponding states of both stores,
every one has the same outcome in both and leads to corresponding states; one that is rejected
changes nothing; and the recorded fence of both is the maximum of the epochs accepted. -/
theorem redis_simulates_memory (hwire : wire.FaithfulOn inPlay)
    (h : Corresponds wire inPlay state session) (sessionId : SessionId)
    (before after : List StoreCall) (call : StoreCall)
    (hcalls : ∀ call' ∈ before ++ call :: after,
      call'.isWrite = false ∧ ∀ d ∈ call'.dataPoints, inPlay d) :
  let redis := fun (session : RedisSession) => session.perform wire sessionId none
  let memoryState := sessionAfter SessionState.perform state before
  let redisState := sessionAfter redis session before
  SameOutcome sessionId call memoryState.maxEpoch (memoryState.perform call).1
      (redis redisState call).1
    ∧ Corresponds wire inPlay (memoryState.perform call).2 (redis redisState call).2
    ∧ (∀ error, (memoryState.perform call).1 = .error error →
      (memoryState.perform call).2 = memoryState ∧ (redis redisState call).2 = redisState)
    ∧ memoryState.maxEpoch
      = (acceptedEpochs SessionState.perform state before).foldl max state.maxEpoch
    ∧ redisState.epoch = memoryState.maxEpoch
  := by
  intro redis memoryState redisState
  have hbefore : ∀ call' ∈ before,
      call'.isWrite = false ∧ ∀ d ∈ call'.dataPoints, inPlay d := by
    intro call' hcall'
    apply hcalls call' (List.mem_append_left _ hcall')
  have hcorresponds := corresponds_after hwire h sessionId hbefore
  obtain ⟨hwrite, hmem⟩ := hcalls call (List.mem_append_right before List.mem_cons_self)
  have hstep := hcorresponds.perform_same hwire sessionId hwrite hmem
  exact ⟨hstep.outcome, hstep.next, hstep.rejected, fence_after hwire h sessionId hbefore,
    hcorresponds.epoch⟩

/-- A note is stored, and an effect claimed and committed at a higher epoch. -/
def noteCalls : List StoreCall :=
  [.applyResolved [sighting 1] [] 1, .claimEffect "mail" 2 false, .commitEffect "mail" 2]

/-- The note is in the view of both, the effect is committed in both, and a commit at the lower epoch
is rejected in both. -/
theorem redis_simulates_memory_note :
  (∃ outcome, SameOutcome "s" .snapshot 2 (.ok (.view [sighting 1])) outcome)
    ∧ (∃ outcome, SameOutcome "s" (.getEffectState "mail") 2
      (.ok (.effectState (some "committed"))) outcome)
    ∧ ∃ outcome, SameOutcome "s" (.commitEffect "mail" 1) 2
      (.error (.staleEpoch "epoch 1 is stale (current 2)")) outcome
  := by
  have h := fun (call : StoreCall)
      (hlast : call.isWrite = false ∧ ∀ d ∈ call.dataPoints, IsNote d) =>
    redis_simulates_memory noteWire_faithful corresponds_initial "s" noteCalls [] call
      (by
        intro call' hcall
        simp only [noteCalls, List.cons_append, List.nil_append, List.mem_cons, List.not_mem_nil,
          or_false] at hcall
        rcases hcall with rfl | rfl | rfl | rfl
        · simp [StoreCall.isWrite, StoreCall.dataPoints, IsNote]
        · simp [StoreCall.isWrite, StoreCall.dataPoints]
        · simp [StoreCall.isWrite, StoreCall.dataPoints]
        · apply hlast)
  have hreads : ∀ call : StoreCall, call.dataPoints = [] →
      ∀ d ∈ call.dataPoints, IsNote d := by
    intro call hnone d hmem
    rw [hnone] at hmem
    cases hmem
  refine ⟨⟨_, (h .snapshot ⟨rfl, hreads _ rfl⟩).1⟩,
    ⟨_, (h (.getEffectState "mail") ⟨rfl, hreads _ rfl⟩).1⟩,
    ⟨_, (h (.commitEffect "mail" 1) ⟨rfl, hreads _ rfl⟩).1⟩⟩

end

end Orcastork
