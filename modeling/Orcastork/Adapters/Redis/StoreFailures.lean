import Orcastork.Adapters.Redis.StoreWrite

/-!
# Operations of the Redis store that fail

One command of an operation may fail without effect, and the operation then raises. A script
that fails has changed nothing. The refresh of the lifetimes comes after the script, so when it
fails the script is in effect: the operation raises although the session has changed.

`raising_keeps_iff` says of every guarded operation when raising means that nothing but the
fence has changed.
-/

namespace Orcastork

variable {wire : Wire} {session : RedisSession} {call : StoreCall} {epoch : Epoch}
variable {script : Epoch → RedisSession → ℤ × RedisSession} {failing : Option RedisCommand}

/-- Nothing of the session has changed but, at most, its fence. -/
def RedisSession.Kept (session session' : RedisSession) : Prop :=
  { session' with epoch := session.epoch } = session

/-- Whether the script of a guarded call, once accepted, changes anything but the fence. -/
def StoreCall.Changes (wire : Wire) (session : RedisSession) : StoreCall → Prop
  | .write dataPoints _ =>
    ∃ triples, RedisSession.writeTriples wire session.dp dataPoints = .ok triples ∧ triples ≠ []
  | .applyResolved added updated _ => added ≠ [] ∨ updated ≠ []
  | .setWatermark operatorId watermark _ => session.wm.get? operatorId ≠ some watermark
  | .claimEffect effectKey epoch reclaimStale =>
    session.fx.get? effectKey = none ∨ reclaimStale = true
      ∧ session.fx.get? effectKey ≠ some effectCommitted
      ∧ session.fx.get? effectKey ≠ some (effectPendingState epoch)
  | .commitEffect effectKey epoch => session.fx.get? effectKey = some (effectPendingState epoch)
  | .revertEffect effectKey epoch => session.fx.get? effectKey = some (effectPendingState epoch)
  | .setSessionDeadline deadline _ =>
    session.metaFields.get? "deadline" ≠ some (wire.isoformat deadline)
  | .setFlowFingerprint fingerprint _ =>
    session.metaFields.get? "flow_fingerprint" ≠ some fingerprint
  | _ => False

namespace RedisSession

theorem kept_iff {session' : RedisSession} :
  session.Kept session' ↔ session'.rev = session.rev ∧ session'.dp = session.dp
    ∧ session'.added = session.added ∧ session'.upd = session.upd ∧ session'.wm = session.wm
    ∧ session'.fx = session.fx ∧ session'.metaFields = session.metaFields
  := by
  cases session
  cases session'
  simp [Kept]

/-- Storing triples changes the revision. -/
theorem not_kept_storeTriples (epoch : Epoch) (triples : List Triple) :
  ¬session.Kept (triples.foldl (storeTriple (session.rev + 1))
      { session with epoch := epoch, rev := session.rev + 1 })
  := by
  intro hkept
  have hrev := (kept_iff.mp hkept).1
  rw [foldl_storeTriple] at hrev
  exact Nat.succ_ne_self session.rev hrev

/-- An accepted write script keeps everything but the fence exactly when it has no triples. -/
theorem writeScript_kept_iff (triples : List Triple) (hle : session.epoch ≤ epoch) :
  (writeScript triples epoch session).1 ≠ -1
    ∧ (session.Kept (writeScript triples epoch session).2 ↔ ¬triples ≠ [])
  := by
  cases triples with
  | nil =>
      rw [writeScript_nil hle]
      constructor
      · apply Corresponds.natCast_ne_neg_one
      · simp only [ne_eq, not_true_eq_false, not_false_eq_true, iff_true]
        rfl
  | cons triple triples =>
      rw [writeScript_of_le hle rfl]
      constructor
      · apply Corresponds.natCast_ne_neg_one
      · simp only [ne_eq, reduceCtorEq, not_false_eq_true, not_true_eq_false, iff_false]
        apply not_kept_storeTriples

/-- An accepted script keeps everything but the fence exactly when its call changes nothing. -/
theorem script_kept_iff (hcall : call.epoch? = some epoch)
    (hscript : call.script? wire session = some script) (hle : session.epoch ≤ epoch) :
  (script epoch session).1 ≠ -1
    ∧ (session.Kept (script epoch session).2 ↔ ¬call.Changes wire session)
  := by
  cases call with
  | write dataPoints epoch' =>
      cases hcall
      simp only [StoreCall.script?, Option.map_eq_some_iff] at hscript
      obtain ⟨triples, htriples, rfl⟩ := hscript
      obtain ⟨hresult, hkept⟩ := writeScript_kept_iff triples hle
      refine ⟨hresult, hkept.trans ?_⟩
      cases hwrite : writeTriples wire session.dp dataPoints with
      | error error =>
          rw [hwrite] at htriples
          cases htriples
      | ok triples' =>
          rw [hwrite] at htriples
          cases htriples
          simp only [StoreCall.Changes, hwrite, Except.ok.injEq, exists_eq_left']
  | applyResolved added updated epoch' =>
      cases hcall
      cases hscript
      obtain ⟨hresult, hkept⟩ := writeScript_kept_iff (resolvedTriples wire added updated) hle
      refine ⟨hresult, hkept.trans ?_⟩
      simp [StoreCall.Changes, resolvedTriples, not_or]
  | setWatermark operatorId watermark epoch' =>
      cases hcall
      cases hscript
      have hrun : watermarkScript operatorId watermark epoch session = (0, _) :=
        guarded_of_le hle _
      rw [hrun]
      constructor
      · apply Corresponds.natCast_ne_neg_one 0
      · simp only [kept_iff, StoreCall.Changes, Dict.set_eq_self_iff, ne_eq, not_not, true_and, and_true]
  | setSessionDeadline deadline epoch' =>
      cases hcall
      cases hscript
      have hrun : metaScript "deadline" (wire.isoformat deadline) epoch session = (0, _) :=
        guarded_of_le hle _
      rw [hrun]
      constructor
      · apply Corresponds.natCast_ne_neg_one 0
      · simp only [kept_iff, StoreCall.Changes, Dict.set_eq_self_iff, ne_eq, not_not, true_and]
  | setFlowFingerprint fingerprint epoch' =>
      cases hcall
      cases hscript
      have hrun : metaScript "flow_fingerprint" fingerprint epoch session = (0, _) :=
        guarded_of_le hle _
      rw [hrun]
      constructor
      · apply Corresponds.natCast_ne_neg_one 0
      · simp only [kept_iff, StoreCall.Changes, Dict.set_eq_self_iff, ne_eq, not_not, true_and]
  | claimEffect effectKey epoch' reclaimStale =>
      cases hcall
      cases hscript
      rw [claimEffectScript, guarded_of_le hle]
      simp only [StoreCall.Changes, effectPendingState, effectCommitted]
      cases hstate : session.fx.get? effectKey with
      | none =>
          constructor
          · apply Corresponds.natCast_ne_neg_one 1
          · simp [kept_iff, Dict.set_eq_self_iff, hstate]
      | some state =>
          by_cases hcommitted : state = "committed"
          · simp only [hcommitted, if_true]
            constructor
            · apply Corresponds.natCast_ne_neg_one 2
            · simp [kept_iff]
          by_cases hpending : state = "pending:" ++ toString epoch
          · simp only [hcommitted, if_false]
            rw [if_pos hpending]
            constructor
            · apply Corresponds.natCast_ne_neg_one 3
            · simp [kept_iff, hpending]
          cases reclaimStale with
          | true =>
              simp only [hcommitted, hpending, if_true, if_false]
              constructor
              · apply Corresponds.natCast_ne_neg_one 1
              · simp [kept_iff, Dict.set_eq_self_iff, hstate, hcommitted]
          | false =>
              simp only [hcommitted, hpending, Bool.false_eq_true, if_false]
              constructor
              · apply Corresponds.natCast_ne_neg_one 4
              · simp [kept_iff]
  | commitEffect effectKey epoch' =>
      cases hcall
      cases hscript
      rw [commitEffectScript, guarded_of_le hle]
      simp only [StoreCall.Changes, effectPendingState]
      split
      · rename_i hown
        have hne := effectPendingState_ne_committed epoch
        rw [effectPendingState, effectCommitted] at hne
        constructor
        · apply Corresponds.natCast_ne_neg_one 0
        · simp only [kept_iff, Dict.set_eq_self_iff, hown, Option.some.injEq, hne, and_true, and_false,
            not_true_eq_false]
      · rename_i hown
        constructor
        · apply Corresponds.natCast_ne_neg_one 0
        · simp only [hown, not_false_eq_true, iff_true]
          rfl
  | revertEffect effectKey epoch' =>
      cases hcall
      cases hscript
      rw [revertEffectScript, guarded_of_le hle]
      simp only [StoreCall.Changes, effectPendingState]
      split
      · rename_i hown
        have hne : session.fx.erase effectKey ≠ session.fx := by
          intro heq
          have hget := Dict.get?_erase session.fx effectKey effectKey
          rw [heq, hown, if_pos rfl] at hget
          cases hget
        constructor
        · apply Corresponds.natCast_ne_neg_one 0
        · simp [kept_iff, hown, hne]
      · rename_i hown
        constructor
        · apply Corresponds.natCast_ne_neg_one 0
        · simp only [hown, not_false_eq_true, iff_true]
          rfl
  | _ => cases hcall

end RedisSession

/-- The refresh of the lifetimes fails after a script that was accepted and changed something. -/
def StoreCall.FailsAfterChange (wire : Wire) (session : RedisSession) (call : StoreCall)
    (failing : Option RedisCommand) : Prop :=
  failing = some .slideTtl ∧ (∀ epoch, call.epoch? = some epoch → session.epoch ≤ epoch)
    ∧ call.Changes wire session

/-- A guarded operation that raises has changed nothing but, at most, the fence, exactly if it is
not the refresh of the lifetimes that fails after a script that was accepted and changed
something. -/
theorem raising_keeps_iff (sessionId : SessionId) (hcall : call.epoch? = some epoch) :
  (∀ error, (session.perform wire sessionId failing call).1 = .error error →
      session.Kept (session.perform wire sessionId failing call).2)
    ↔ ¬call.FailsAfterChange wire session failing
  := by
  have hkept : session.Kept session := rfl
  cases hscript : call.script? wire session with
  | none =>
      cases call with
      | write dataPoints epoch' =>
          cases hwrite : RedisSession.writeTriples wire session.dp dataPoints with
          | ok triples =>
              rw [StoreCall.script?, hwrite] at hscript
              cases hscript
          | error error =>
              have hsame : (session.perform wire sessionId failing (.write dataPoints epoch')).2
                  = session := by
                rw [RedisSession.perform, RedisSession.write]
                split
                · rfl
                · rw [hwrite]
                  rfl
              constructor
              · rintro - ⟨-, -, triples, htriples, -⟩
                rw [hwrite] at htriples
                cases htriples
              · intro hnot error' herror
                rw [hsame]
                apply hkept
      | _ => cases hcall <;> cases hscript
  | some script =>
      by_cases hget : call.isWrite = true ∧ failing = some .hgetall
      · obtain ⟨hwrite, rfl⟩ := hget
        cases call with
        | write dataPoints epoch' =>
            constructor
            · rintro - ⟨hfailing, -⟩
              cases hfailing
            · intro hnot error herror
              apply hkept
        | _ => cases hwrite
      · have hrun : session.perform wire sessionId failing call = _ :=
          RedisSession.perform_eq_runScript hcall hscript
            (fun hwrite hfailing => hget ⟨hwrite, hfailing⟩)
        by_cases hfailed : failing = some .script
        · subst hfailed
          rw [RedisSession.runScript_failed] at hrun
          rw [hrun]
          constructor
          · rintro - ⟨hfailing, -⟩
            cases hfailing
          · intro hnot error herror
            apply hkept
        rcases Nat.lt_or_ge epoch session.epoch with hlt | hle
        · rw [RedisSession.runScript_stale hfailed (RedisSession.script_of_lt hscript hlt)] at hrun
          rw [hrun]
          constructor
          · rintro - ⟨-, hepoch, -⟩
            exact absurd (hepoch epoch hcall) (Nat.not_le.mpr hlt)
          · intro hnot error herror
            apply hkept
        obtain ⟨hresult, hiff⟩ := RedisSession.script_kept_iff hcall hscript hle
        by_cases httl : failing = some .slideTtl
        · subst httl
          rw [RedisSession.runScript_slideTtl rfl hresult] at hrun
          rw [hrun]
          constructor
          · rintro hraise ⟨-, -, hchanges⟩
            apply hiff.mp (hraise _ rfl) hchanges
          · intro hnot error herror
            apply hiff.mpr
            intro hchanges
            apply hnot
            refine ⟨rfl, ?_, hchanges⟩
            intro epoch' hepoch'
            rw [hcall, Option.some.injEq] at hepoch'
            rw [← hepoch']
            apply hle
        · rw [RedisSession.runScript_accepted rfl hresult ⟨hfailed, httl⟩] at hrun
          rw [hrun]
          constructor
          · rintro - ⟨hfailing, -⟩
            exact httl hfailing
          · intro hnot error herror
            cases herror

end Orcastork
