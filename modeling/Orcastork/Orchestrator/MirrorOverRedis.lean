import Orcastork.Adapters.Redis.StoreFailures
import Orcastork.Orchestrator.MirrorSimulation
import Orcastork.Library.TransitionSystem

/-!
# The mirror over a Redis store that fails

A mirror forwards its resolved batches to the Redis store, any command of which may fail, and
leaves its copy alone when the forward raises. It stays in step with the store as long as
raising means that nothing landed. That is so unless the refresh of the lifetimes fails after
a batch that changed something; over every run without such a failure the mirror equals the
store and no first-added stamp is assigned again (`mirror_stays_in_step`).
-/

namespace Orcastork

open Resolution

variable {wire : Wire} {inPlay : BaseDataPoint → Prop} {sessionId : SessionId}

/-- `SessionStateMirror.write` over the Redis store. -/
def SessionStateMirror.writeRedis (wire : Wire) (mirror : SessionStateMirror)
    (session : RedisSession) (dataPoints : List BaseDataPoint) (epoch : Epoch)
    (failing : Option RedisCommand) :
    Except RedisError MirrorWriteResult × SessionStateMirror × RedisSession :=
  match mirror.requireHydrated with
  | .error error => (.error (.orchestration error), mirror, session)
  | .ok () =>
    let resolution := SessionStateMirror.resolve mirror.entries dataPoints
    match session.applyResolved wire mirror.sessionId resolution.added.values
        resolution.updated.values epoch failing with
    | (.error error, session) => (.error error, mirror, session)
    | (.ok revision, session) =>
      (.ok ⟨revision, resolution.outcomes⟩, mirror.apply resolution revision, session)

/-- A mirror next to the session it writes to. -/
structure MirroredRedis where
  mirror : SessionStateMirror
  session : RedisSession

/-- A write through the mirror, and the command of it that fails. -/
structure MirrorWrite where
  dataPoints : List BaseDataPoint
  epoch : Epoch
  failing : Option RedisCommand

namespace MirroredRedis

/-- The mirror and the session after a write. -/
def step (wire : Wire) (mirrored : MirroredRedis) (write : MirrorWrite) : Option MirroredRedis :=
  let (_, mirror, session) := mirrored.mirror.writeRedis wire mirrored.session write.dataPoints
    write.epoch write.failing
  some ⟨mirror, session⟩

/-- The call a write forwards to the store. -/
def forwarded (mirrored : MirroredRedis) (write : MirrorWrite) : StoreCall :=
  let resolution := SessionStateMirror.resolve mirrored.mirror.entries write.dataPoints
  .applyResolved resolution.added.values resolution.updated.values write.epoch

/-- The triples a write hands to the store's script. -/
def triples (wire : Wire) (mirrored : MirroredRedis) (write : MirrorWrite) : List Triple :=
  let resolution := SessionStateMirror.resolve mirrored.mirror.entries write.dataPoints
  RedisSession.resolvedTriples wire resolution.added.values resolution.updated.values

/-- The mirror equals the store: both are what one state of a session says. -/
def InStep (wire : Wire) (inPlay : BaseDataPoint → Prop) (mirrored : MirroredRedis) : Prop :=
  ∃ state, Corresponds wire inPlay state mirrored.session ∧ Agrees mirrored.mirror state

/-- The DataPoints of a later session are those of an earlier one and more, and the first-added
stamps of the earlier ones are as they were. -/
def StampsKept (earlier later : RedisSession) : Prop :=
  ∀ identity raw, earlier.dp.get? identity = some raw →
    (∃ raw', later.dp.get? identity = some raw')
      ∧ later.added.get? identity = earlier.added.get? identity

/-! ### What a resolution lists -/

/-- Whatever a resolution lists is in play, if the batch and the entries are. -/
theorem resolve_inPlay (hwire : wire.FaithfulOn inPlay) {entries : MirrorEntries}
    (hentries : ∀ key entry, entries.get? key = some entry → inPlay entry.dataPoint)
    {dataPoints : List BaseDataPoint} (hmem : ∀ d ∈ dataPoints, inPlay d) :
  (∀ key d, (SessionStateMirror.resolve entries dataPoints).added.get? key = some d → inPlay d)
    ∧ ∀ key d, (SessionStateMirror.resolve entries dataPoints).updated.get? key = some d → inPlay d
  := by
  rw [SessionStateMirror.resolve]
  induction dataPoints using List.reverseRecOn with
  | nil =>
      constructor
      · intro key d h
        cases h
      · intro key d h
        cases h
  | append_singleton dataPoints d ih =>
      obtain ⟨hadded, hupdated⟩ := ih (fun d' hd' => hmem d' (List.mem_append_left [d] hd'))
      have hd := hmem d (List.mem_append_right dataPoints List.mem_cons_self)
      rw [List.foldl_append, List.foldl_cons, List.foldl_nil, SessionStateMirror.resolveOne]
      split
      · rename_i known hknown
        constructor
        · apply Dict.forall_get?_set hadded _ (hwire.reobserved (hadded _ _ hknown) hd)
        · apply hupdated
      · split
        · rename_i known hknown
          constructor
          · apply hadded
          · apply Dict.forall_get?_set hupdated _ (hwire.reobserved (hupdated _ _ hknown) hd)
        · split
          · constructor
            · apply Dict.forall_get?_set hadded _ hd
            · apply hupdated
          · rename_i existing hexisting
            constructor
            · apply hadded
            · simp only
              split
              · apply Dict.forall_get?_set hupdated _
                  (hwire.reobserved (hentries _ _ hexisting) hd)
              · apply hupdated

/-- The DataPoints a mirror in step forwards are in play. -/
theorem forwarded_inPlay (hwire : wire.FaithfulOn inPlay) {mirrored : MirroredRedis}
    {state : SessionState} (hstored : Corresponds wire inPlay state mirrored.session)
    (hagrees : Agrees mirrored.mirror state) {dataPoints : List BaseDataPoint}
    (hmem : ∀ d ∈ dataPoints, inPlay d) :
  let resolution := SessionStateMirror.resolve mirrored.mirror.entries dataPoints
  (∀ d ∈ resolution.added.values, inPlay d) ∧ ∀ d ∈ resolution.updated.values, inPlay d
  := by
  intro resolution
  have hentries : ∀ key entry, mirrored.mirror.entries.get? key = some entry →
      inPlay entry.dataPoint := by
    intro key entry hentry
    rw [hagrees.entries, Dict.get?_map, Option.map_eq_some_iff] at hentry
    obtain ⟨stored, hget, rfl⟩ := hentry
    apply hstored.stored.mem hget
  obtain ⟨hadded, hupdated⟩ := resolve_inPlay hwire hentries hmem
  constructor
  · intro d hd
    obtain ⟨key, hkey⟩ := Dict.mem_values_iff.mp hd
    apply hadded key d hkey
  · intro d hd
    obtain ⟨key, hkey⟩ := Dict.mem_values_iff.mp hd
    apply hupdated key d hkey

/-! ### One write -/

theorem stampsKept_refl (session : RedisSession) (epoch : Epoch) :
  StampsKept session { session with epoch := epoch }
  := by
  intro identity raw hraw
  exact ⟨⟨raw, hraw⟩, rfl⟩

/-- The triples a mirror in step forwards stamp no known identity as added. -/
theorem stampsKept_storeTriples (hwire : wire.FaithfulOn inPlay) {mirrored : MirroredRedis}
    {state : SessionState} (hstored : Corresponds wire inPlay state mirrored.session)
    (hagrees : Agrees mirrored.mirror state) {dataPoints : List BaseDataPoint}
    (hmem : ∀ d ∈ dataPoints, inPlay d) (n : Revision) (epoch : Epoch) :
  let resolution := SessionStateMirror.resolve mirrored.mirror.entries dataPoints
  StampsKept mirrored.session
    ((RedisSession.resolvedTriples wire resolution.added.values resolution.updated.values).foldl
      (RedisSession.storeTriple n) { mirrored.session with epoch := epoch, rev := n })
  := by
  intro resolution identity raw hraw
  obtain ⟨hadded, hupdated⟩ := forwarded_inPlay hwire hstored hagrees hmem
  have hres : resolution.Resolves state.entries.keys := by
    have hres := resolve_resolves mirrored.mirror.rehydratedAt hagrees.wellFormed dataPoints
    rw [← hagrees.entries] at hres
    apply hres
  have hmode : ∀ triple ∈ RedisSession.resolvedTriples wire resolution.added.values
      resolution.updated.values, triple.identity = identity → triple.mode = .u := by
    intro triple htriple hidentity
    rcases List.mem_append.mp htriple with hmemTriple | hmemTriple
    · obtain ⟨d, hd, rfl⟩ := List.mem_map.mp hmemTriple
      obtain ⟨key, hkey⟩ := Dict.mem_values_iff.mp hd
      have hnone : state.entries.get? (identityKey d) = none := by
        rw [Dict.get?_eq_none_iff, hres.added_keyed hkey]
        apply hres.added_new (Dict.mem_keys_of_get? hkey)
      have hdp := hstored.stored.dp (hadded d hd)
      simp only at hidentity
      rw [hnone, hidentity, hraw] at hdp
      cases hdp
    · obtain ⟨d, hd, rfl⟩ := List.mem_map.mp hmemTriple
      rfl
  constructor
  · rw [RedisSession.dp_foldl_storeTriple]
    cases (RedisSession.triplesFor identity
        (RedisSession.resolvedTriples wire resolution.added.values
          resolution.updated.values)).getLast? with
    | none => exact ⟨raw, hraw⟩
    | some triple => exact ⟨triple.json, rfl⟩
  · rw [RedisSession.added_foldl_storeTriple n _ _ identity hmode]
    rfl

section

variable {mirrored mirrored' : MirroredRedis} {write : MirrorWrite} {session' : RedisSession}

/-- A write whose forward raises leaves the mirror alone. -/
theorem step_of_error {error : RedisError} (hhydrated : mirrored.mirror.hydrated = true)
    (hrun : mirrored.session.runScript mirrored.mirror.sessionId write.epoch
        (RedisSession.writeScript (mirrored.triples wire write)) write.failing
      = (.error error, session')) :
  mirrored.step wire write = some ⟨mirrored.mirror, session'⟩
  := by
  rw [triples] at hrun
  rw [step, SessionStateMirror.writeRedis, SessionStateMirror.requireHydrated, if_pos hhydrated]
  simp only [RedisSession.applyResolved, RedisSession.apply, hrun]
  rfl

/-- A write whose forward is accepted is applied to the mirror. -/
theorem step_of_ok {result : ℤ} (hhydrated : mirrored.mirror.hydrated = true)
    (hrun : mirrored.session.runScript mirrored.mirror.sessionId write.epoch
        (RedisSession.writeScript (mirrored.triples wire write)) write.failing
      = (.ok result, session')) :
  mirrored.step wire write = some
    ⟨mirrored.mirror.apply
      (SessionStateMirror.resolve mirrored.mirror.entries write.dataPoints) result.toNat, session'⟩
  := by
  rw [triples] at hrun
  rw [step, SessionStateMirror.writeRedis, SessionStateMirror.requireHydrated, if_pos hhydrated]
  simp only [RedisSession.applyResolved, RedisSession.apply, hrun]
  rfl

/-- A write forwards something exactly if its resolution lists something. -/
theorem triples_eq_nil_iff :
  mirrored.triples wire write = [] ↔ ¬(mirrored.forwarded write).Changes wire mirrored.session
  := by
  simp [triples, RedisSession.resolvedTriples, forwarded, StoreCall.Changes]

/-- An agreement does not depend on the fence. -/
theorem agrees_setEpoch {mirror : SessionStateMirror} {state : SessionState}
    (h : Agrees mirror state) (epoch : Epoch) :
  Agrees mirror { state with maxEpoch := epoch }
  := ⟨h.wellFormed, h.hydrated, h.entries, h.revision, h.rehydrated_le, h.baselines⟩

/-- A write that does not raise after its batch has landed keeps the mirror in step, and assigns
no first-added stamp again. -/
theorem inStep_step (hwire : wire.FaithfulOn inPlay) (h : InStep wire inPlay mirrored)
    (hmem : ∀ d ∈ write.dataPoints, inPlay d)
    (hfailure : ¬(mirrored.forwarded write).FailsAfterChange wire mirrored.session write.failing)
    (hstep : mirrored.step wire write = some mirrored') :
  InStep wire inPlay mirrored' ∧ StampsKept mirrored.session mirrored'.session
  := by
  obtain ⟨state, hstored, hagrees⟩ := h
  obtain ⟨hadded, hupdated⟩ := forwarded_inPlay hwire hstored hagrees hmem
  have hrefl := stampsKept_refl mirrored.session mirrored.session.epoch
  by_cases hfailed : write.failing = some .script
  · rw [step_of_error hagrees.hydrated (hfailed ▸ RedisSession.runScript_failed)] at hstep
    cases hstep
    exact ⟨⟨state, hstored, hagrees⟩, hrefl⟩
  rcases Nat.lt_or_ge write.epoch mirrored.session.epoch with hlt | hle
  · have hstale : RedisSession.writeScript (mirrored.triples wire write) write.epoch
        mirrored.session = (-1, mirrored.session) := RedisSession.guarded_of_lt hlt _
    rw [step_of_error hagrees.hydrated (RedisSession.runScript_stale hfailed hstale)] at hstep
    cases hstep
    exact ⟨⟨state, hstored, hagrees⟩, hrefl⟩
  have hmaxEpoch : state.maxEpoch ≤ write.epoch := by
    rw [← hstored.epoch]
    apply hle
  by_cases httl : write.failing = some .slideTtl
  · have hnothing : mirrored.triples wire write = [] := by
      rw [triples_eq_nil_iff]
      intro hchanges
      apply hfailure
      refine ⟨httl, ?_, hchanges⟩
      intro epoch hepoch
      cases hepoch
      apply hle
    have hrun : mirrored.session.runScript mirrored.mirror.sessionId write.epoch
        (RedisSession.writeScript []) (some .slideTtl) = _ :=
      RedisSession.runScript_slideTtl (RedisSession.writeScript_nil hle)
        (Corresponds.natCast_ne_neg_one _)
    rw [← httl, ← hnothing] at hrun
    rw [step_of_error hagrees.hydrated hrun] at hstep
    cases hstep
    constructor
    · exact ⟨_, hstored.accept write.epoch, agrees_setEpoch hagrees write.epoch⟩
    · apply stampsKept_refl
  · obtain ⟨script, result, state', session', hscript, hrun, hresult, hperform, -, hnext⟩ :=
      hstored.accepts_applyResolved hwire hmaxEpoch hadded hupdated
    cases hscript
    rw [step_of_ok hagrees.hydrated
      (RedisSession.runScript_accepted hrun hresult ⟨hfailed, httl⟩)] at hstep
    cases hstep
    constructor
    · cases happly : state.applyResolved
          (SessionStateMirror.resolve mirrored.mirror.entries write.dataPoints).added.values
          (SessionStateMirror.resolve mirrored.mirror.entries write.dataPoints).updated.values
          write.epoch with
      | error error =>
          rw [SessionState.perform, happly] at hperform
          cases hperform
      | ok next =>
          obtain ⟨revision, next⟩ := next
          rw [SessionState.perform, happly] at hperform
          cases hperform
          exact ⟨_, hnext, hagrees.apply happly⟩
    · cases hempty : (mirrored.triples wire write).isEmpty with
      | true =>
          have hnothing := List.isEmpty_iff.mp hempty
          rw [triples] at hnothing
          rw [hnothing, RedisSession.writeScript_nil hle] at hrun
          cases hrun
          apply stampsKept_refl
      | false =>
          rw [triples] at hempty
          rw [RedisSession.writeScript_of_le hle hempty] at hrun
          cases hrun
          apply stampsKept_storeTriples hwire hstored hagrees hmem

/-- A write that raises after its batch has landed leaves the mirror behind the store. -/
theorem not_inStep_step (h : InStep wire inPlay mirrored)
    (hfailure : (mirrored.forwarded write).FailsAfterChange wire mirrored.session write.failing)
    (hstep : mirrored.step wire write = some mirrored') :
  ¬InStep wire inPlay mirrored'
  := by
  obtain ⟨state, hstored, hagrees⟩ := h
  obtain ⟨httl, hepoch, hchanges⟩ := hfailure
  have hempty : (mirrored.triples wire write).isEmpty = false := by
    rw [Bool.eq_false_iff, ne_eq, List.isEmpty_iff, triples_eq_nil_iff, not_not]
    apply hchanges
  have hrun : mirrored.session.runScript mirrored.mirror.sessionId write.epoch
      (RedisSession.writeScript (mirrored.triples wire write)) (some .slideTtl) = _ :=
    RedisSession.runScript_slideTtl (RedisSession.writeScript_of_le (hepoch _ rfl) hempty)
      (Corresponds.natCast_ne_neg_one _)
  rw [← httl] at hrun
  rw [step_of_error hagrees.hydrated hrun] at hstep
  cases hstep
  rintro ⟨state', hstored', hagrees'⟩
  have hrev := hstored'.rev
  rw [← hagrees'.revision, hagrees.revision, ← hstored.rev, RedisSession.foldl_storeTriple] at hrev
  exact Nat.succ_ne_self _ hrev

end

theorem StampsKept.trans {a b c : RedisSession} (hab : StampsKept a b) (hbc : StampsKept b c) :
  StampsKept a c
  := by
  intro identity raw hraw
  obtain ⟨⟨raw', hraw'⟩, hadded⟩ := hab identity raw hraw
  obtain ⟨hthere, hadded'⟩ := hbc identity raw' hraw'
  exact ⟨hthere, hadded'.trans hadded⟩

end MirroredRedis

open MirroredRedis

section

variable {mirrored : MirroredRedis} {writes : List MirrorWrite}

/-- No write of a run raises after its batch has landed. -/
def NoneFailsAfterChange (wire : Wire) (mirrored : MirroredRedis) (writes : List MirrorWrite) :
    Prop :=
  TransitionSystem.Always (step wire)
    (fun reached write =>
      ¬(reached.forwarded write).FailsAfterChange wire reached.session write.failing)
    mirrored writes

theorem inStep_run (hwire : wire.FaithfulOn inPlay)
    (hmem : ∀ write ∈ writes, ∀ d ∈ write.dataPoints, inPlay d)
    (hstart : InStep wire inPlay mirrored) (halways : NoneFailsAfterChange wire mirrored writes)
    {reached : MirroredRedis} (hrun : TransitionSystem.run (step wire) mirrored writes = some reached) :
  InStep wire inPlay reached ∧ StampsKept mirrored.session reached.session
  := by
  induction writes generalizing mirrored with
  | nil =>
      cases hrun
      exact ⟨hstart, stampsKept_refl reached.session reached.session.epoch⟩
  | cons write writes ih =>
      obtain ⟨next, hnext, hrun⟩ := TransitionSystem.run_cons_eq_some.mp hrun
      obtain ⟨hfirst, hrest⟩ := TransitionSystem.always_cons hnext halways
      obtain ⟨hstep, hkept⟩ := inStep_step hwire hstart (hmem write List.mem_cons_self) hfirst hnext
      obtain ⟨hreached, hkept'⟩ :=
        ih (fun write' hwrite' => hmem write' (List.mem_cons_of_mem write hwrite')) hstep hrest hrun
      exact ⟨hreached, hkept.trans hkept'⟩

/-- A guarded operation of the Redis store that raises has changed nothing but, at most, the
fence, exactly if it is not the refresh of the lifetimes that fails after a script that was
accepted and changed something. A mirror in step stays so throughout a run of its writes, and no
first-added stamp is assigned again, exactly if none of them fails in that way. -/
theorem mirror_stays_in_step_iff (hwire : wire.FaithfulOn inPlay)
    (hmem : ∀ write ∈ writes, ∀ d ∈ write.dataPoints, inPlay d)
    (hstart : InStep wire inPlay mirrored) :
  (∀ (session : RedisSession) (sessionId : SessionId) (call : StoreCall) (epoch : Epoch)
      (failing : Option RedisCommand), call.epoch? = some epoch →
    ((∀ error, (session.perform wire sessionId failing call).1 = .error error →
        session.Kept (session.perform wire sessionId failing call).2)
      ↔ ¬call.FailsAfterChange wire session failing))
    ∧ ((∀ before after reached, writes = before ++ after →
        TransitionSystem.run (step wire) mirrored before = some reached →
        InStep wire inPlay reached ∧ StampsKept mirrored.session reached.session)
      ↔ NoneFailsAfterChange wire mirrored writes)
  := by
  constructor
  · intro session sessionId call epoch failing hcall
    apply raising_keeps_iff sessionId hcall
  constructor
  · intro hreach before write after hsplit reached hrun hfailure
    obtain ⟨hreached, -⟩ := hreach before (write :: after) reached hsplit hrun
    have hnext : TransitionSystem.run (step wire) mirrored (before ++ [write]) = some _ :=
      TransitionSystem.run_append_eq_some.mpr
        ⟨reached, hrun, TransitionSystem.run_cons_eq_some.mpr ⟨_, rfl, rfl⟩⟩
    have hafter := hreach (before ++ [write]) after _ (by rw [hsplit, List.append_assoc]; rfl) hnext
    apply not_inStep_step hreached hfailure rfl hafter.1
  · intro halways before after reached hsplit hrun
    apply inStep_run hwire _ hstart _ hrun
    · intro write hwrite
      apply hmem write
      rw [hsplit]
      apply List.mem_append_left after hwrite
    · intro earlier write later hearlier
      apply halways earlier write (later ++ after)
      rw [hsplit, hearlier, List.append_assoc, List.cons_append]

/-- A new note that lands, and a later sighting whose script fails. -/
theorem mirror_stays_in_step_iff_notes :
  ∃ mirrored writes, writes ≠ [] ∧ InStep noteWire IsNote mirrored
    ∧ ((∀ before after reached, writes = before ++ after →
        TransitionSystem.run (step noteWire) mirrored before = some reached →
        InStep noteWire IsNote reached ∧ StampsKept mirrored.session reached.session)
      ↔ NoneFailsAfterChange noteWire mirrored writes)
  := by
  have hstart : InStep noteWire IsNote
      ⟨(SessionStateMirror.initial "s").rehydrate .initial, .initial⟩ :=
    ⟨.initial, corresponds_initial, agrees_rehydrate _ SessionState.initial_wellFormed⟩
  refine ⟨_, [⟨[sighting 1], 1, none⟩, ⟨[sighting 2], 1, some .script⟩], by decide, hstart, ?_⟩
  apply (mirror_stays_in_step_iff noteWire_faithful _ hstart).2
  simp [IsNote]

/-- The refresh of the lifetimes fails after a new note was stored: the operation raises, and the
session is at another revision. -/
theorem slide_ttl_fails_after_change :
  ∃ error, (RedisSession.initial.perform noteWire "s" (some .slideTtl)
        (.write [sighting 1] 1)).1 = .error error
    ∧ ¬RedisSession.initial.Kept (RedisSession.initial.perform noteWire "s" (some .slideTtl)
        (.write [sighting 1] 1)).2
  := by
  refine ⟨.commandFailed .slideTtl, rfl, ?_⟩
  intro hkept
  have hrev := congrArg RedisSession.rev hkept
  revert hrev
  decide

end

end Orcastork
