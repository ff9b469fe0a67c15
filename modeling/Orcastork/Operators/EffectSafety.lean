import Orcastork.Operators.Effects
import Orcastork.Adapters.Redis.StoreSimulation

/-!
# Effects run once

What the guard can see of a store is the mark of its key and the fence (`MarkView`); both stores
answer its calls by these alone (`EffectStore.Lawful`). A move of a block keeps the mark, takes it
for the block's epoch, or settles the mark the block took (`MarkChange`), and every safety fact
follows from that.

Blocks that took the mark own it until it is settled. At most one block of an epoch owns it, and
below the fence nothing is acquired any more (`Guarded`).
-/

namespace Orcastork

/-- The mark of the key, and the fence. -/
structure MarkView where
  mark : Option String
  fence : Epoch

namespace MarkView

/-- What a claim answers, and what it leaves. -/
def claim (view : MarkView) (epoch : Epoch) (reclaimStale : Bool) :
    Option EffectClaim × MarkView :=
  if epoch < view.fence then (none, view)
  else
    match view.mark with
    | none => (some .acquired, ⟨some (effectPendingState epoch), epoch⟩)
    | some text =>
      if text = effectCommitted then (some .alreadyCommitted, ⟨some text, epoch⟩)
      else if text = effectPendingState epoch then (some .pendingSameEpoch, ⟨some text, epoch⟩)
      else if reclaimStale then (some .acquired, ⟨some (effectPendingState epoch), epoch⟩)
      else (some .pendingStaleEpoch, ⟨some text, epoch⟩)

/-- What a commit or a revert leaves: the mark its epoch took becomes `settled`. -/
def settle (view : MarkView) (epoch : Epoch) (settled : Option String) : MarkView :=
  if epoch < view.fence then view
  else ⟨if view.mark = some (effectPendingState epoch) then settled else view.mark, epoch⟩

end MarkView

namespace EffectStore

variable {Store : Type}

/-- What the guard can see of a store. -/
def view (store : EffectStore Store) (state : Store) : MarkView :=
  ⟨store.getEffectState state, store.fence state⟩

/-- A store that answers the calls of the guard by what the guard can see. -/
structure Lawful (store : EffectStore Store) : Prop where
  claim : ∀ state epoch reclaimStale,
    Prod.map id store.view (store.claimEffect state epoch reclaimStale)
      = (store.view state).claim epoch reclaimStale
  commit : ∀ state epoch, store.view (store.commitEffect state epoch)
    = (store.view state).settle epoch (some effectCommitted)
  revert : ∀ state epoch, store.view (store.revertEffect state epoch)
    = (store.view state).settle epoch none

end EffectStore

/-! ### The two stores -/

theorem pendingState_inj {epoch epoch' : Epoch} :
  effectPendingState epoch = effectPendingState epoch' ↔ epoch = epoch'
  := by
  rw [effectPendingState, effectPendingState, String.append_right_inj, Readable.natText_inj]

theorem map_text_eq_pending_iff {stored : Option EffectState} {epoch : Epoch} :
  stored.map EffectState.text = some (effectPendingState epoch) ↔ stored = some (.pending epoch)
  := by
  cases stored with
  | none => simp
  | some effect =>
      rw [Option.map_some, Option.some.injEq, Option.some.injEq]
      apply text_eq_pending_iff

theorem memory_view (effectKey : String) (state : SessionState) :
  (EffectStore.memory effectKey).view state
    = ⟨(state.effects.get? effectKey).map EffectState.text, state.maxEpoch⟩
  := rfl

/-- An accepted claim on the in-memory store. -/
theorem memory_claimEffect {effectKey : String} {state : SessionState} {epoch : Epoch}
    (hle : state.maxEpoch ≤ epoch) (reclaimStale : Bool) :
  (EffectStore.memory effectKey).claimEffect state epoch reclaimStale
    = let accepted := { state with maxEpoch := epoch }
      let taken := { accepted with effects := state.effects.set effectKey (.pending epoch) }
      match state.effects.get? effectKey with
      | none => (some .acquired, taken)
      | some stored =>
        if stored = .committed then (some .alreadyCommitted, accepted)
        else if stored = .pending epoch then (some .pendingSameEpoch, accepted)
        else if reclaimStale then (some .acquired, taken)
        else (some .pendingStaleEpoch, accepted)
  := by
  simp only [EffectStore.memory, SessionState.claimEffect, SessionState.guardEpoch_of_le hle, bind,
    Except.bind]
  cases state.effects.get? effectKey with
  | none => rfl
  | some stored =>
      simp only
      split_ifs
      · rfl
      · rfl
      · rfl
      · rfl

theorem memory_lawful (effectKey : String) :
  (EffectStore.memory effectKey).Lawful
  := by
  constructor
  · intro state epoch reclaimStale
    rw [MarkView.claim, memory_view]
    rcases Nat.lt_or_ge epoch state.maxEpoch with hlt | hle
    · rw [if_pos hlt, EffectStore.memory]
      simp only [SessionState.claimEffect, SessionState.guardEpoch_of_lt hlt, bind, Except.bind]
      rfl
    rw [if_neg (Nat.not_lt.mpr hle), memory_claimEffect hle]
    cases hstored : state.effects.get? effectKey with
    | none =>
        rw [Prod.map_apply, memory_view, Dict.get?_set_self]
        rfl
    | some effect =>
        simp only [Option.map_some]
        have hcommitted : effect.text = effectCommitted ↔ effect = .committed :=
          text_eq_committed_iff
        have hpending : effect.text = effectPendingState epoch ↔ effect = .pending epoch :=
          text_eq_pending_iff
        simp only [hcommitted, hpending]
        split_ifs
        · rw [Prod.map_apply, memory_view, hstored]
          rfl
        · rw [Prod.map_apply, memory_view, hstored]
          rfl
        · rw [Prod.map_apply, memory_view, Dict.get?_set_self]
          rfl
        · rw [Prod.map_apply, memory_view, hstored]
          rfl
  · intro state epoch
    rw [MarkView.settle, memory_view effectKey state, EffectStore.memory]
    rcases Nat.lt_or_ge epoch state.maxEpoch with hlt | hle
    · rw [if_pos hlt]
      simp only [SessionState.commitEffect, SessionState.guardEpoch_of_lt hlt, bind, Except.bind]
      rfl
    rw [if_neg (Nat.not_lt.mpr hle)]
    simp only [SessionState.commitEffect, SessionState.guardEpoch_of_le hle, bind, Except.bind,
      map_text_eq_pending_iff]
    by_cases hpending : state.effects.get? effectKey = some (.pending epoch)
    · rw [if_pos hpending, if_pos (Or.inl hpending)]
      simp [EffectStore.view, SessionState.getEffectState, pure, Except.pure, EffectState.text]
    rw [if_neg hpending]
    by_cases hcommitted : state.effects.get? effectKey = some .committed
    · rw [if_pos (Or.inr hcommitted), Dict.set_eq_self hcommitted]
      rfl
    · rw [if_neg (not_or.mpr ⟨hpending, hcommitted⟩)]
      rfl
  · intro state epoch
    rw [MarkView.settle, memory_view effectKey state, EffectStore.memory]
    rcases Nat.lt_or_ge epoch state.maxEpoch with hlt | hle
    · rw [if_pos hlt]
      simp only [SessionState.revertEffect, SessionState.guardEpoch_of_lt hlt, bind, Except.bind]
      rfl
    rw [if_neg (Nat.not_lt.mpr hle)]
    simp only [SessionState.revertEffect, SessionState.guardEpoch_of_le hle, bind, Except.bind,
      map_text_eq_pending_iff]
    by_cases hpending : state.effects.get? effectKey = some (.pending epoch)
    · rw [if_pos hpending, if_pos hpending]
      simp [EffectStore.view, SessionState.getEffectState, pure, Except.pure, Dict.get?_erase]
    · rw [if_neg hpending, if_neg hpending]
      rfl

theorem redis_view (sessionId : SessionId) (effectKey : String) (session : RedisSession) :
  (EffectStore.redis sessionId effectKey).view session
    = ⟨session.fx.get? effectKey, session.epoch⟩
  := rfl

section

variable {session session' : RedisSession} {sessionId : SessionId} {epoch : Epoch}
variable {script : Epoch → RedisSession → ℤ × RedisSession} {result : ℤ}

/-- A stale script, with no command failing. -/
theorem runScript_none_stale (hscript : script epoch session = (-1, session)) :
  session.runScript sessionId epoch script none
    = (.error (.orchestration (.staleEpoch s!"epoch {epoch} is stale for session {sessionId}")),
        session)
  := by
  apply RedisSession.runScript_stale _ hscript
  decide

/-- An accepted script, with no command failing. -/
theorem runScript_none_accepted (hscript : script epoch session = (result, session'))
    (hresult : result ≠ -1) :
  session.runScript sessionId epoch script none = (.ok result, session')
  := by
  apply RedisSession.runScript_accepted hscript hresult
  decide

end

/-- A claim on the Redis store whose script is accepted. -/
theorem redis_claimEffect {sessionId : SessionId} {effectKey : String} {session session' : RedisSession}
    {epoch : Epoch} {reclaimStale : Bool} {result : ℤ}
    (hscript : RedisSession.claimEffectScript effectKey reclaimStale epoch session
      = (result, session'))
    (hresult : result ≠ -1) :
  (EffectStore.redis sessionId effectKey).claimEffect session epoch reclaimStale
    = (some (RedisSession.claimResult result), session')
  := by
  rw [EffectStore.redis]
  simp only [RedisSession.claimEffect,
    runScript_none_accepted hscript hresult]
  rfl

theorem redis_lawful (sessionId : SessionId) (effectKey : String) :
  (EffectStore.redis sessionId effectKey).Lawful
  := by
  constructor
  · intro session epoch reclaimStale
    rw [MarkView.claim, redis_view sessionId effectKey session]
    rcases Nat.lt_or_ge epoch session.epoch with hlt | hle
    · have hscript : RedisSession.claimEffectScript effectKey reclaimStale epoch session = (-1, session) :=
        RedisSession.guarded_of_lt hlt _
      rw [if_pos hlt, EffectStore.redis]
      simp only [RedisSession.claimEffect, runScript_none_stale hscript]
      rfl
    rw [if_neg (Nat.not_lt.mpr hle)]
    have hscript : RedisSession.claimEffectScript effectKey reclaimStale epoch session = _ :=
      RedisSession.guarded_of_le hle _
    cases hstored : session.fx.get? effectKey with
    | none =>
        simp only [hstored] at hscript
        rw [redis_claimEffect hscript (by decide), Prod.map_apply, redis_view, Dict.get?_set_self]
        rfl
    | some text =>
        simp only [hstored] at hscript
        dsimp only
        by_cases hcommitted : text = effectCommitted
        · have hcommitted' : text = "committed" := hcommitted
          rw [if_pos hcommitted'] at hscript
          rw [if_pos hcommitted, redis_claimEffect hscript (by decide), Prod.map_apply, redis_view, hstored]
          rfl
        have hcommitted' : text ≠ "committed" := hcommitted
        rw [if_neg hcommitted'] at hscript
        rw [if_neg hcommitted]
        by_cases hpending : text = effectPendingState epoch
        · have hpending' : text = "pending:" ++ toString epoch := hpending
          rw [if_pos hpending'] at hscript
          rw [if_pos hpending, redis_claimEffect hscript (by decide), Prod.map_apply, redis_view, hstored]
          rfl
        have hpending' : text ≠ "pending:" ++ toString epoch := hpending
        rw [if_neg hpending'] at hscript
        rw [if_neg hpending]
        cases reclaimStale with
        | true =>
            rw [redis_claimEffect hscript (by decide), Prod.map_apply, redis_view, Dict.get?_set_self]
            rfl
        | false =>
            rw [redis_claimEffect hscript (by decide), Prod.map_apply, redis_view, hstored]
            rfl
  · intro session epoch
    rw [MarkView.settle, redis_view sessionId effectKey session, EffectStore.redis]
    rcases Nat.lt_or_ge epoch session.epoch with hlt | hle
    · have hscript : RedisSession.commitEffectScript effectKey epoch session = (-1, session) :=
        RedisSession.guarded_of_lt hlt _
      rw [if_pos hlt]
      simp only [RedisSession.commitEffect, runScript_none_stale hscript]
      rfl
    rw [if_neg (Nat.not_lt.mpr hle)]
    by_cases hpending : session.fx.get? effectKey = some (effectPendingState epoch)
    · have hscript : RedisSession.commitEffectScript effectKey epoch session
          = (0, { session with epoch := epoch, fx := session.fx.set effectKey "committed" }) := by
        rw [RedisSession.commitEffectScript, RedisSession.guarded_of_le hle]
        apply if_pos hpending
      simp only [RedisSession.commitEffect,
        runScript_none_accepted hscript (by decide), if_pos hpending]
      simp [EffectStore.view, RedisSession.getEffectState, effectCommitted]
    · have hscript : RedisSession.commitEffectScript effectKey epoch session
          = (0, { session with epoch := epoch }) := by
        rw [RedisSession.commitEffectScript, RedisSession.guarded_of_le hle]
        apply if_neg hpending
      simp only [RedisSession.commitEffect,
        runScript_none_accepted hscript (by decide), if_neg hpending]
      rfl
  · intro session epoch
    rw [MarkView.settle, redis_view sessionId effectKey session, EffectStore.redis]
    rcases Nat.lt_or_ge epoch session.epoch with hlt | hle
    · have hscript : RedisSession.revertEffectScript effectKey epoch session = (-1, session) :=
        RedisSession.guarded_of_lt hlt _
      rw [if_pos hlt]
      simp only [RedisSession.revertEffect, runScript_none_stale hscript]
      rfl
    rw [if_neg (Nat.not_lt.mpr hle)]
    by_cases hpending : session.fx.get? effectKey = some (effectPendingState epoch)
    · have hscript : RedisSession.revertEffectScript effectKey epoch session
          = (0, { session with epoch := epoch, fx := session.fx.erase effectKey }) := by
        rw [RedisSession.revertEffectScript, RedisSession.guarded_of_le hle]
        apply if_pos hpending
      simp only [RedisSession.revertEffect,
        runScript_none_accepted hscript (by decide), if_pos hpending]
      simp [EffectStore.view, RedisSession.getEffectState, Dict.get?_erase]
    · have hscript : RedisSession.revertEffectScript effectKey epoch session
          = (0, { session with epoch := epoch }) := by
        rw [RedisSession.revertEffectScript, RedisSession.guarded_of_le hle]
        apply if_neg hpending
      simp only [RedisSession.revertEffect,
        runScript_none_accepted hscript (by decide), if_neg hpending]
      rfl

/-! ### What a move does -/

/-- A block that took the mark and has not settled it. -/
def GuardBlock.Owns (block : GuardBlock) : Prop :=
  block.point = .body true ∨ block.point = .committing ∨ block.point = .reverting

/-- What a move of a block does to the mark. -/
inductive MarkChange (view view' : MarkView) (block block' : GuardBlock) : Prop where
  | keeps (hmark : view'.mark = view.mark) (hfence : view.fence ≤ view'.fence)
      (howns : block'.Owns → block.point = .body true ∧ block'.point ≠ .body true)
  | takes (hfence : view.fence ≤ block.epoch) (hcommitted : view.mark ≠ some effectCommitted)
      (hpending : view.mark ≠ some (effectPendingState block.epoch))
      (hreclaims : view.mark ≠ none → block.point = .reclaiming)
      (hview : view' = ⟨some (effectPendingState block.epoch), block.epoch⟩)
  | settles (hfence : view.fence ≤ block.epoch)
      (hpending : view.mark = some (effectPendingState block.epoch))
      (hsettles : (block.point = .committing ∧ view' = ⟨some effectCommitted, block.epoch⟩)
        ∨ (block.point = .reverting ∧ view' = ⟨none, block.epoch⟩))
      (howns : ¬block'.Owns)

section

variable {Store : Type} {store : EffectStore Store}

/-- What a claim does, by what it answers. -/
theorem MarkView.claim_cases (view : MarkView) (epoch : Epoch) (reclaimStale : Bool) :
  ((view.claim epoch reclaimStale).1 ≠ some .acquired
      ∧ (view.claim epoch reclaimStale).2.mark = view.mark
      ∧ view.fence ≤ (view.claim epoch reclaimStale).2.fence)
    ∨ (view.fence ≤ epoch ∧ view.mark ≠ some effectCommitted
      ∧ view.mark ≠ some (effectPendingState epoch) ∧ (view.mark ≠ none → reclaimStale = true)
      ∧ view.claim epoch reclaimStale
        = (some .acquired, ⟨some (effectPendingState epoch), epoch⟩))
  := by
  obtain ⟨mark, fence⟩ := view
  rw [MarkView.claim]
  dsimp only
  rcases Nat.lt_or_ge epoch fence with hlt | hle
  · left
    rw [if_pos hlt]
    exact ⟨by simp, rfl, Nat.le_refl _⟩
  rw [if_neg (Nat.not_lt.mpr hle)]
  cases mark with
  | none =>
      right
      exact ⟨hle, by simp, by simp, by simp, rfl⟩
  | some text =>
      dsimp only
      by_cases hcommitted : text = effectCommitted
      · left
        rw [if_pos hcommitted]
        exact ⟨by simp, rfl, hle⟩
      rw [if_neg hcommitted]
      by_cases hpending : text = effectPendingState epoch
      · left
        rw [if_pos hpending]
        exact ⟨by simp, rfl, hle⟩
      rw [if_neg hpending]
      cases reclaimStale with
      | true =>
          right
          exact ⟨hle, by simpa using hcommitted, by simpa using hpending, by simp, rfl⟩
      | false =>
          left
          exact ⟨by simp, rfl, hle⟩

/-- What settling does: it changes the mark its epoch took, or no mark. -/
theorem MarkView.settle_cases (view : MarkView) (epoch : Epoch) (settled : Option String) :
  ((view.settle epoch settled).mark = view.mark ∧ view.fence ≤ (view.settle epoch settled).fence)
    ∨ (view.fence ≤ epoch ∧ view.mark = some (effectPendingState epoch)
      ∧ view.settle epoch settled = ⟨settled, epoch⟩)
  := by
  rw [MarkView.settle]
  rcases Nat.lt_or_ge epoch view.fence with hlt | hle
  · left
    rw [if_pos hlt]
    exact ⟨rfl, Nat.le_refl _⟩
  rw [if_neg (Nat.not_lt.mpr hle)]
  by_cases hpending : view.mark = some (effectPendingState epoch)
  · right
    rw [if_pos hpending]
    exact ⟨hle, hpending, rfl⟩
  · left
    rw [if_neg hpending]
    exact ⟨rfl, hle⟩

/-- A call that is in effect leaves what the store leaves, and one that is not leaves it. -/
theorem callMove_shared (state : Store) (block : GuardBlock) (ending : CallEnding) (next : Store)
    (point : GuardPoint) :
  (block.callMove state ending next point).1 = next
      ∧ ((block.callMove state ending next point).2.point = point
        ∨ (block.callMove state ending next point).2.point = .left)
    ∨ (block.callMove state ending next point).1 = state
      ∧ (block.callMove state ending next point).2.point = .left
  := by
  cases ending with
  | answered => exact Or.inl ⟨rfl, Or.inl rfl⟩
  | withoutEffect => exact Or.inr ⟨rfl, rfl⟩
  | unanswered => exact Or.inl ⟨rfl, Or.inr rfl⟩

theorem callMove_epoch (state : Store) (block : GuardBlock) (ending : CallEnding) (next : Store)
    (point : GuardPoint) :
  (block.callMove state ending next point).2.epoch = block.epoch
  := by
  cases ending with
  | answered => rfl
  | withoutEffect => rfl
  | unanswered => rfl

theorem move_epoch {state state' : Store} {block block' : GuardBlock} {m : GuardMove}
    (h : block.move store state m = some (state', block')) :
  block'.epoch = block.epoch
  := by
  cases m with
  | call ending =>
      cases hpoint : block.point with
      | body acquired =>
          simp only [GuardBlock.move, hpoint] at h
          cases h
      | left =>
          simp only [GuardBlock.move, hpoint] at h
          cases h
      | _ =>
          simp only [GuardBlock.move, hpoint, Option.some.injEq] at h
          obtain ⟨rfl, rfl⟩ := Prod.ext_iff.mp h
          apply callMove_epoch
  | finish ending =>
      simp only [GuardBlock.move] at h
      split at h
      · cases h
        rfl
      · cases h

theorem not_owns_of_left {block : GuardBlock} (h : block.point = .left) :
  ¬block.Owns
  := by
  rw [GuardBlock.Owns, h]
  simp

theorem eq_acquired_of_afterClaim {onUnknown : EffectRecovery} (claim : Option EffectClaim)
    (h : GuardBlock.afterClaim onUnknown claim = .body true) :
  claim = some .acquired
  := by
  rcases claim with _ | (_ | _ | _ | _)
  · cases h
  · rfl
  · cases h
  · cases h
  · cases onUnknown with
    | rerun => cases h
    | skip => cases h

theorem afterClaim_ne {onUnknown : EffectRecovery} (claim : Option EffectClaim) :
  GuardBlock.afterClaim onUnknown claim ≠ .committing
    ∧ GuardBlock.afterClaim onUnknown claim ≠ .reverting
  := by
  rcases claim with _ | (_ | _ | _ | _)
  all_goals cases onUnknown
  all_goals simp [GuardBlock.afterClaim]

theorem eq_acquired_of_afterReclaim (claim : Option EffectClaim)
    (h : GuardBlock.afterReclaim claim = .body true) :
  claim = some .acquired
  := by
  cases claim with
  | none => cases h
  | some claim => simpa [GuardBlock.afterReclaim] using h

theorem afterReclaim_ne (claim : Option EffectClaim) :
  GuardBlock.afterReclaim claim ≠ .committing ∧ GuardBlock.afterReclaim claim ≠ .reverting
  := by
  cases claim with
  | none => simp [GuardBlock.afterReclaim]
  | some claim => simp [GuardBlock.afterReclaim]

/-- What a claiming call does to the mark. -/
theorem claimMove_change (hstore : store.Lawful) (state : Store) {block : GuardBlock}
    (ending : CallEnding) {reclaimStale : Bool} {after : Option EffectClaim → GuardPoint}
    (hreclaims : reclaimStale = true → block.point = .reclaiming)
    (hbody : ∀ claim, after claim = .body true → claim = some .acquired)
    (hafter : ∀ claim, after claim ≠ .committing ∧ after claim ≠ .reverting) :
  MarkChange (store.view state)
    (store.view (block.callMove state ending (store.claimEffect state block.epoch reclaimStale).2
      (after (store.claimEffect state block.epoch reclaimStale).1)).1) block
    (block.callMove state ending (store.claimEffect state block.epoch reclaimStale).2
      (after (store.claimEffect state block.epoch reclaimStale).1)).2
  := by
  obtain ⟨hclaim, hnext⟩ := Prod.ext_iff.mp (hstore.claim state block.epoch reclaimStale)
  rw [Prod.map_fst, id] at hclaim
  rw [Prod.map_snd] at hnext
  rcases callMove_shared state block ending (store.claimEffect state block.epoch reclaimStale).2
    (after (store.claimEffect state block.epoch reclaimStale).1) with
    ⟨hshared, hpoint⟩ | ⟨hshared, hpoint⟩
  · rw [hshared, hnext]
    rcases (store.view state).claim_cases block.epoch reclaimStale with
      ⟨hnot, hmark, hfence⟩ | ⟨hfence, hcommitted, hpending, hstale, htakes⟩
    · apply MarkChange.keeps hmark hfence
      intro howns
      rw [GuardBlock.Owns] at howns
      rcases hpoint with hpoint | hpoint
      · rw [hpoint] at howns
        rcases howns with howns | howns | howns
        · rw [← hclaim] at hnot
          exact absurd (hbody _ howns) hnot
        · exact absurd howns (hafter _).1
        · exact absurd howns (hafter _).2
      · exact absurd howns (not_owns_of_left hpoint)
    · apply MarkChange.takes hfence hcommitted hpending
      · intro hmarked
        apply hreclaims (hstale hmarked)
      · rw [htakes]
  · rw [hshared]
    apply MarkChange.keeps rfl (Nat.le_refl _)
    intro howns
    exact absurd howns (not_owns_of_left hpoint)

/-- What a settling call does to the mark. -/
theorem settleMove_change {state next : Store} {block : GuardBlock} (ending : CallEnding)
    {settled : Option String}
    (hnext : store.view next = (store.view state).settle block.epoch settled)
    (hsettles : (block.point = .committing ∧ settled = some effectCommitted)
      ∨ (block.point = .reverting ∧ settled = none)) :
  MarkChange (store.view state) (store.view (block.callMove state ending next .left).1) block
    (block.callMove state ending next .left).2
  := by
  have hleft : (block.callMove state ending next .left).2.point = .left := by
    cases ending with
    | answered => rfl
    | withoutEffect => rfl
    | unanswered => rfl
  have hnot := not_owns_of_left hleft
  rcases callMove_shared state block ending next .left with ⟨hshared, -⟩ | ⟨hshared, -⟩
  · rw [hshared, hnext]
    rcases (store.view state).settle_cases block.epoch settled with
      ⟨hmark, hfence⟩ | ⟨hfence, hpending, hsettle⟩
    · apply MarkChange.keeps hmark hfence
      intro howns
      exact absurd howns hnot
    · apply MarkChange.settles hfence hpending _ hnot
      rw [hsettle]
      rcases hsettles with ⟨hpoint, rfl⟩ | ⟨hpoint, rfl⟩
      · left
        exact ⟨hpoint, rfl⟩
      · right
        exact ⟨hpoint, rfl⟩
  · rw [hshared]
    apply MarkChange.keeps rfl (Nat.le_refl _)
    intro howns
    exact absurd howns hnot

/-- What a move does to the mark. -/
theorem move_change (hstore : store.Lawful) {state state' : Store} {block block' : GuardBlock}
    {m : GuardMove} (h : block.move store state m = some (state', block')) :
  MarkChange (store.view state) (store.view state') block block'
  := by
  cases m with
  | call ending =>
      cases hpoint : block.point with
      | claiming =>
          simp only [GuardBlock.move, hpoint, Option.some.injEq] at h
          obtain ⟨rfl, rfl⟩ := Prod.ext_iff.mp h
          apply claimMove_change hstore
          · intro hfalse
            cases hfalse
          · apply eq_acquired_of_afterClaim
          · apply afterClaim_ne
      | readingStale =>
          simp only [GuardBlock.move, hpoint, Option.some.injEq] at h
          obtain ⟨rfl, rfl⟩ := Prod.ext_iff.mp h
          have hshared : (block.callMove state ending state .reclaiming).1 = state := by
            cases ending with
            | answered => rfl
            | withoutEffect => rfl
            | unanswered => rfl
          rw [hshared]
          apply MarkChange.keeps rfl (Nat.le_refl _)
          intro howns
          cases ending with
          | answered => simp [GuardBlock.callMove, GuardBlock.Owns] at howns
          | withoutEffect => simp [GuardBlock.callMove, GuardBlock.Owns] at howns
          | unanswered => simp [GuardBlock.callMove, GuardBlock.Owns] at howns
      | reclaiming =>
          simp only [GuardBlock.move, hpoint, Option.some.injEq] at h
          obtain ⟨rfl, rfl⟩ := Prod.ext_iff.mp h
          apply claimMove_change hstore
          · intro _
            apply hpoint
          · apply eq_acquired_of_afterReclaim
          · apply afterReclaim_ne
      | committing =>
          simp only [GuardBlock.move, hpoint, Option.some.injEq] at h
          obtain ⟨rfl, rfl⟩ := Prod.ext_iff.mp h
          apply settleMove_change ending (hstore.commit state block.epoch)
          left
          exact ⟨hpoint, rfl⟩
      | reverting =>
          simp only [GuardBlock.move, hpoint, Option.some.injEq] at h
          obtain ⟨rfl, rfl⟩ := Prod.ext_iff.mp h
          apply settleMove_change ending (hstore.revert state block.epoch)
          right
          exact ⟨hpoint, rfl⟩
      | body acquired =>
          simp only [GuardBlock.move, hpoint] at h
          cases h
      | left =>
          simp only [GuardBlock.move, hpoint] at h
          cases h
  | finish ending =>
      simp only [GuardBlock.move] at h
      split at h
      · rename_i acquired hpoint
        cases h
        apply MarkChange.keeps rfl (Nat.le_refl _)
        intro howns
        cases acquired with
        | true =>
            use hpoint
            cases ending with
            | clean => simp [GuardBlock.afterBody]
            | raised => simp [GuardBlock.afterBody]
            | cancelled => simp [GuardBlock.afterBody]
        | false => simp [GuardBlock.afterBody, GuardBlock.Owns] at howns
      · cases h

/-! ### Who owns the mark -/

/-- A block that owns the mark is of an epoch the fence has reached; at the fence, it finds the
mark pending under its epoch. -/
def GuardBlock.InMark (view : MarkView) (block : GuardBlock) : Prop :=
  block.Owns → block.epoch ≤ view.fence
    ∧ (block.epoch = view.fence → view.mark = some (effectPendingState block.epoch))

/-- Two blocks that both own the mark are of different epochs. -/
def GuardBlock.Apart (block block' : GuardBlock) : Prop :=
  block.Owns → block'.Owns → block.epoch ≠ block'.epoch

/-- A pending mark is one of an epoch the fence has reached, the blocks that own the mark find
it, and no two blocks of one epoch own it. -/
structure Guarded (store : EffectStore Store) (threads : Threads Store GuardBlock) : Prop where
  marked : (store.view threads.shared).mark = none
    ∨ (store.view threads.shared).mark = some effectCommitted
    ∨ ∃ epoch ≤ (store.view threads.shared).fence,
      (store.view threads.shared).mark = some (effectPendingState epoch)
  owned : ∀ (i : ℕ) block, threads.points[i]? = some block →
    block.InMark (store.view threads.shared)
  apart : ∀ (i j : ℕ) block block', i ≠ j → threads.points[i]? = some block →
    threads.points[j]? = some block' → block.Apart block'

variable {threads threads' : Threads Store GuardBlock}

theorem guarded_start {start : Store} (h : store.getEffectState start = none) :
  Guarded store ⟨start, []⟩
  := by
  constructor
  · left
    apply h
  · intro i block hi
    simp at hi
  · intro i j block block' _ hi
    simp at hi

namespace GuardBlock

theorem apart_symm (block block' : GuardBlock) (h : block.Apart block') :
  block'.Apart block
  := by
  intro howns howns'
  apply (h howns' howns).symm

/-- A block that owns nothing. -/
theorem inMark_of_not_owns {view : MarkView} {block : GuardBlock} (h : ¬block.Owns) :
  block.InMark view
  := by
  intro howns
  exact absurd howns h

theorem apart_of_not_owns {block : GuardBlock} (h : ¬block.Owns) (block' : GuardBlock) :
  block.Apart block'
  := by
  intro howns
  exact absurd howns h

/-- A raised fence leaves no owner at the fence but those that were there. -/
theorem InMark.mono {view view' : MarkView} {block : GuardBlock} (h : block.InMark view)
    (hmark : view'.mark = view.mark) (hfence : view.fence ≤ view'.fence) :
  block.InMark view'
  := by
  intro howns
  obtain ⟨hle, hown⟩ := h howns
  use Nat.le_trans hle hfence
  intro hsame
  rw [hmark]
  apply hown
  apply Nat.le_antisymm hle
  rw [hsame]
  apply hfence

/-- Where the mark is taken or settled for another epoch at the fence, an owner is left behind
the fence. -/
theorem InMark.behind {view : MarkView} {block : GuardBlock} (h : block.InMark view)
    {epoch : Epoch} (hfence : view.fence ≤ epoch) (mark : Option String)
    (hne : block.Owns → block.epoch ≠ epoch) :
  block.InMark ⟨mark, epoch⟩
  := by
  intro howns
  obtain ⟨hle, -⟩ := h howns
  use Nat.le_trans hle hfence
  intro hsame
  exact absurd hsame (hne howns)

end GuardBlock

namespace Guarded

/-- A mark is pending under an epoch the fence has reached. -/
theorem le_fence (h : Guarded store threads) {epoch : Epoch}
    (hmark : (store.view threads.shared).mark = some (effectPendingState epoch)) :
  epoch ≤ (store.view threads.shared).fence
  := by
  rcases h.marked with hnone | hcommitted | ⟨epoch', hle, hpending⟩
  · rw [hmark] at hnone
    cases hnone
  · rw [hmark, Option.some.injEq] at hcommitted
    exact absurd hcommitted (effectPendingState_ne_committed epoch)
  · rw [hmark, Option.some.injEq, pendingState_inj] at hpending
    rw [hpending]
    apply hle

/-- Where a block takes the mark, no owner is of its epoch. -/
theorem ne_of_takes (h : Guarded store threads) {i : ℕ} {block : GuardBlock} {epoch : Epoch}
    (hi : threads.points[i]? = some block) (hfence : (store.view threads.shared).fence ≤ epoch)
    (hpending : (store.view threads.shared).mark ≠ some (effectPendingState epoch))
    (howns : block.Owns) :
  block.epoch ≠ epoch
  := by
  rintro rfl
  obtain ⟨hle, hown⟩ := h.owned i block hi howns
  apply hpending
  apply hown (Nat.le_antisymm hle hfence)

/-- A move of a block keeps who owns the mark. -/
theorem move (h : Guarded store threads) {i : ℕ} {block block' : GuardBlock} {shared' : Store}
    (hi : threads.points[i]? = some block) (hepoch : block'.epoch = block.epoch)
    (hchange : MarkChange (store.view threads.shared) (store.view shared') block block') :
  Guarded store ⟨shared', threads.points.set i block'⟩
  := by
  rcases hchange with ⟨hmark, hfence, howns⟩ |
    ⟨hfence, -, hpending, -, hview⟩ | ⟨hfence, hpending, hsettles, hnot⟩
  · have howner : block'.Owns → block.Owns := by
      intro hown
      left
      apply (howns hown).1
    constructor
    · dsimp only
      rw [hmark]
      rcases h.marked with hnone | hcommitted | ⟨epoch, hle, hpending⟩
      · left
        apply hnone
      · right
        left
        apply hcommitted
      · right
        right
        use epoch, Nat.le_trans hle hfence
    · dsimp only
      apply Threads.forall_set (Q := GuardBlock.InMark (store.view shared')) hi h.owned
      · have hkept := (h.owned i block hi).mono hmark hfence
        intro hown
        rw [hepoch]
        apply hkept (howner hown)
      · intro j other _ _ hother
        apply hother.mono hmark hfence
    · apply Threads.pairwise_set (R := GuardBlock.Apart) GuardBlock.apart_symm hi h.apart
      intro j other hne hj hown hother
      rw [hepoch]
      apply h.apart i j block other hne.symm hi hj (howner hown) hother
  · constructor
    · right
      right
      dsimp only
      rw [hview]
      use block.epoch
    · dsimp only
      apply Threads.forall_set (Q := GuardBlock.InMark (store.view shared')) hi h.owned
      · intro _
        rw [hview, hepoch]
        exact ⟨Nat.le_refl _, fun _ => rfl⟩
      · intro j other _ hj hother
        rw [hview]
        apply hother.behind hfence
        apply h.ne_of_takes hj hfence hpending
    · apply Threads.pairwise_set (R := GuardBlock.Apart) GuardBlock.apart_symm hi h.apart
      intro j other _ hj _ hother
      rw [hepoch]
      apply (h.ne_of_takes hj hfence hpending hother).symm
  · have howns : block.Owns := by
      rcases hsettles with ⟨hpoint, -⟩ | ⟨hpoint, -⟩
      · right
        left
        apply hpoint
      · right
        right
        apply hpoint
    obtain ⟨mark, hview, hmark⟩ : ∃ mark, store.view shared' = ⟨mark, block.epoch⟩
        ∧ (mark = none ∨ mark = some effectCommitted) := by
      rcases hsettles with ⟨-, hview⟩ | ⟨-, hview⟩
      · exact ⟨_, hview, Or.inr rfl⟩
      · exact ⟨_, hview, Or.inl rfl⟩
    constructor
    · dsimp only
      rw [hview]
      rcases hmark with rfl | rfl
      · left
        rfl
      · right
        left
        rfl
    · dsimp only
      apply Threads.forall_set (Q := GuardBlock.InMark (store.view shared')) hi h.owned
      · apply GuardBlock.inMark_of_not_owns hnot
      · intro j other hne hj hother
        rw [hview]
        apply hother.behind hfence
        intro hown
        apply h.apart j i other block hne hj hi hown howns
    · apply Threads.pairwise_set (R := GuardBlock.Apart) GuardBlock.apart_symm hi h.apart
      intro j other _ _
      apply GuardBlock.apart_of_not_owns hnot

end Guarded

/-! ### Steps -/

/-- The block at a position is in its body and runs the effect. -/
def Holds (threads : Threads Store GuardBlock) (i : ℕ) (epoch : Epoch) : Prop :=
  ∃ block, threads.points[i]? = some block ∧ block.point = .body true ∧ block.epoch = epoch

/-- What a step does: a block is entered, moves, or something else happens in the store. -/
inductive GuardChange (store : EffectStore Store) (threads threads' : Threads Store GuardBlock)
    (action : GuardAction Store) : Prop where
  | enters (block : GuardBlock) (hpoint : block.point = .claiming)
      (hthreads : threads' = threads.start block)
  | moves (i : ℕ) (m : GuardMove) (block block' : GuardBlock) (shared' : Store)
      (haction : action = .move i m) (hi : threads.points[i]? = some block)
      (hmove : block.move store threads.shared m = some (shared', block'))
      (hepoch : block'.epoch = block.epoch)
      (hchange : MarkChange (store.view threads.shared) (store.view shared') block block')
      (hthreads : threads' = ⟨shared', threads.points.set i block'⟩)
  | elsewhere (shared' : Store)
      (hmark : (store.view shared').mark = (store.view threads.shared).mark)
      (hfence : (store.view threads.shared).fence ≤ (store.view shared').fence)
      (hthreads : threads' = ⟨shared', threads.points⟩)

theorem guardStep_change (hstore : store.Lawful) {action : GuardAction Store}
    (h : guardStep store threads action = some threads') :
  GuardChange store threads threads' action
  := by
  cases action with
  | enter epoch onUnknown =>
      cases h
      apply GuardChange.enters (.entered epoch onUnknown) rfl rfl
  | move i m =>
      obtain ⟨block, shared', block', hi, hmove, rfl⟩ := Threads.advance_eq_some.mp h
      exact .moves i m block block' shared' rfl hi hmove (move_epoch hmove)
        (move_change hstore hmove) rfl
  | elsewhere next =>
      rw [guardStep] at h
      split at h
      · rename_i hkept
        cases h
        apply GuardChange.elsewhere next hkept.1 hkept.2 rfl
      · cases h

theorem not_owns_of_claiming {block : GuardBlock} (h : block.point = .claiming) :
  ¬block.Owns
  := by
  rw [GuardBlock.Owns, h]
  simp

/-- Every step keeps who owns the mark. -/
theorem Guarded.step (hstore : store.Lawful) (h : Guarded store threads)
    {action : GuardAction Store} (hstep : guardStep store threads action = some threads') :
  Guarded store threads'
  := by
  rcases guardStep_change hstore hstep with ⟨block, hpoint, rfl⟩ |
    ⟨i, m, block, block', shared', -, hi, -, hepoch, hchange, rfl⟩ | ⟨shared', hmark, hfence, rfl⟩
  · have hnot := not_owns_of_claiming hpoint
    constructor
    · apply h.marked
    · intro j other hj
      rcases Threads.getElem?_start_eq_some.mp hj with hj | ⟨-, rfl⟩
      · apply h.owned j other hj
      · apply GuardBlock.inMark_of_not_owns hnot
    · intro j k other other' hne hj hk
      rcases Threads.getElem?_start_eq_some.mp hj with hj | ⟨-, rfl⟩
      · rcases Threads.getElem?_start_eq_some.mp hk with hk | ⟨-, rfl⟩
        · apply h.apart j k other other' hne hj hk
        · apply GuardBlock.apart_symm
          apply GuardBlock.apart_of_not_owns hnot
      · apply GuardBlock.apart_of_not_owns hnot
  · apply h.move hi hepoch hchange
  · constructor
    · dsimp only
      rw [hmark]
      rcases h.marked with hnone | hcommitted | ⟨epoch, hle, hpending⟩
      · left
        apply hnone
      · right
        left
        apply hcommitted
      · right
        right
        use epoch, Nat.le_trans hle hfence
    · intro j other hj
      apply (h.owned j other hj).mono hmark hfence
    · apply h.apart

/-- A block that comes to run the effect has taken the mark. -/
theorem acquired_step (hstore : store.Lawful) {action : GuardAction Store}
    (hstep : guardStep store threads action = some threads') {i : ℕ} {epoch : Epoch}
    (hholds : Holds threads' i epoch) (hnot : ¬Holds threads i epoch) :
  (store.view threads.shared).fence ≤ epoch
    ∧ (store.view threads.shared).mark ≠ some effectCommitted
    ∧ (store.view threads.shared).mark ≠ some (effectPendingState epoch)
  := by
  obtain ⟨holder, hholder, hbody, rfl⟩ := hholds
  rcases guardStep_change hstore hstep with ⟨block, hpoint, rfl⟩ |
    ⟨j, m, block, block', shared', -, hj, -, hepoch, hchange, rfl⟩ | ⟨shared', -, -, rfl⟩
  · rcases Threads.getElem?_start_eq_some.mp hholder with hholder | ⟨-, rfl⟩
    · exact absurd ⟨holder, hholder, hbody, rfl⟩ hnot
    · rw [hpoint] at hbody
      cases hbody
  · rcases (Threads.getElem?_set_eq_some hj).mp hholder with ⟨rfl, rfl⟩ | ⟨-, hholder⟩
    · rcases hchange with ⟨-, -, howns⟩ | ⟨hfence, hcommitted, hpending, -, -⟩ | ⟨-, -, -, hnone⟩
      · exact absurd hbody (howns (Or.inl hbody)).2
      · rw [hepoch]
        exact ⟨hfence, hcommitted, hpending⟩
      · exact absurd (Or.inl hbody) hnone
    · exact absurd ⟨holder, hholder, hbody, rfl⟩ hnot
  · exact absurd ⟨holder, hholder, hbody, rfl⟩ hnot

/-- A committed mark stays. -/
theorem committed_step (hstore : store.Lawful) {action : GuardAction Store}
    (hstep : guardStep store threads action = some threads')
    (hcommitted : (store.view threads.shared).mark = some effectCommitted) :
  (store.view threads'.shared).mark = some effectCommitted
  := by
  rcases guardStep_change hstore hstep with ⟨block, -, rfl⟩ |
    ⟨j, m, block, block', shared', -, -, -, -, hchange, rfl⟩ | ⟨shared', hmark, -, rfl⟩
  · apply hcommitted
  · rcases hchange with ⟨hmark, -, -⟩ | ⟨-, hnot, -, -, -⟩ | ⟨-, hpending, -, -⟩
    · rw [← hcommitted]
      apply hmark
    · exact absurd hcommitted hnot
    · rw [hcommitted, Option.some.injEq] at hpending
      exact absurd hpending.symm (effectPendingState_ne_committed block.epoch)
  · rw [← hcommitted]
    apply hmark

/-- The effect of an epoch is over: the fence has passed it, or the mark is committed, or it is
pending and only a commit can settle it. -/
def Spent (store : EffectStore Store) (epoch : Epoch) (threads : Threads Store GuardBlock) : Prop :=
  epoch < (store.view threads.shared).fence
    ∨ (store.view threads.shared).mark = some effectCommitted
    ∨ (store.view threads.shared).mark = some (effectPendingState epoch)
      ∧ ∀ (i : ℕ) block, threads.points[i]? = some block → block.Owns → block.epoch = epoch →
        block.point = .committing

/-- A spent effect stays spent. -/
theorem spent_step (hstore : store.Lawful) (h : Guarded store threads) {epoch : Epoch}
    (hspent : Spent store epoch threads) {action : GuardAction Store}
    (hstep : guardStep store threads action = some threads') :
  Spent store epoch threads'
  := by
  rcases guardStep_change hstore hstep with ⟨block, hpoint, rfl⟩ |
    ⟨i, m, block, block', shared', -, hi, -, hepoch, hchange, rfl⟩ | ⟨shared', hmark, hfence, rfl⟩
  · rcases hspent with hlt | hcommitted | ⟨hpending, hcommitting⟩
    · left
      apply hlt
    · right
      left
      apply hcommitted
    · right
      right
      use hpending
      intro j other hj howns
      rcases Threads.getElem?_start_eq_some.mp hj with hj | ⟨-, rfl⟩
      · apply hcommitting j other hj howns
      · exact absurd howns (not_owns_of_claiming hpoint)
  · rcases hchange with ⟨hmark, hfence, howner⟩ |
      ⟨hfence, hcommitted, hother, -, hview⟩ | ⟨hfence, hown, hsettles, hnot⟩
    · rcases hspent with hlt | hcommitted | ⟨hpending, hcommitting⟩
      · left
        apply Nat.lt_of_lt_of_le hlt hfence
      · right
        left
        rw [← hcommitted]
        apply hmark
      · right
        right
        constructor
        · rw [← hpending]
          apply hmark
        · intro j other hj howns hsame
          rcases (Threads.getElem?_set_eq_some hi).mp hj with ⟨rfl, rfl⟩ | ⟨-, hj⟩
          · obtain ⟨hbody, -⟩ := howner howns
            have hpoint := hcommitting j block hi (Or.inl hbody) (hepoch.symm.trans hsame)
            rw [hbody] at hpoint
            cases hpoint
          · apply hcommitting j other hj howns hsame
    · left
      rw [hview]
      rcases hspent with hlt | hcommitted' | ⟨hpending, -⟩
      · apply Nat.lt_of_lt_of_le hlt hfence
      · exact absurd hcommitted' hcommitted
      · apply Nat.lt_of_le_of_ne
        · apply Nat.le_trans (h.le_fence hpending) hfence
        · rintro rfl
          apply hother hpending
    · rcases hspent with hlt | hcommitted | ⟨hpending, hcommitting⟩
      · left
        rcases hsettles with ⟨-, hview⟩ | ⟨-, hview⟩
        · rw [hview]
          apply Nat.lt_of_lt_of_le hlt hfence
        · rw [hview]
          apply Nat.lt_of_lt_of_le hlt hfence
      · rw [hown, Option.some.injEq] at hcommitted
        exact absurd hcommitted (effectPendingState_ne_committed block.epoch)
      · right
        left
        rw [hown, Option.some.injEq, pendingState_inj] at hpending
        rcases hsettles with ⟨-, hview⟩ | ⟨hpoint, -⟩
        · rw [hview]
        · have hcommit := hcommitting i block hi (Or.inr (Or.inr hpoint)) hpending
          rw [hpoint] at hcommit
          cases hcommit
  · rcases hspent with hlt | hcommitted | ⟨hpending, hcommitting⟩
    · left
      apply Nat.lt_of_lt_of_le hlt hfence
    · right
      left
      rw [← hcommitted]
      apply hmark
    · right
      right
      constructor
      · rw [← hpending]
        apply hmark
      · apply hcommitting

/-- Nothing is acquired in an epoch whose effect is spent. -/
theorem not_acquired_of_spent (hstore : store.Lawful) {epoch : Epoch}
    (hspent : Spent store epoch threads) {action : GuardAction Store}
    (hstep : guardStep store threads action = some threads') {i : ℕ}
    (hholds : Holds threads' i epoch) :
  Holds threads i epoch
  := by
  by_contra hnot
  obtain ⟨hfence, hcommitted, hpending⟩ := acquired_step hstore hstep hholds hnot
  rcases hspent with hlt | hmark | ⟨hmark, -⟩
  · exact absurd hlt (Nat.not_lt.mpr hfence)
  · exact absurd hmark hcommitted
  · exact absurd hmark hpending

/-- A body that ends cleanly leaves the effect of its epoch spent. -/
theorem spent_of_clean (h : Guarded store threads) {i : ℕ} {epoch : Epoch}
    (hholds : Holds threads i epoch)
    (hstep : guardStep store threads (.move i (.finish .clean)) = some threads') :
  Spent store epoch threads'
  := by
  obtain ⟨block, hi, hbody, rfl⟩ := hholds
  obtain ⟨block₁, shared', block', hi', hmove, rfl⟩ := Threads.advance_eq_some.mp hstep
  obtain rfl : block = block₁ := Option.some.inj (hi.symm.trans hi')
  rw [GuardBlock.move, hbody] at hmove
  cases hmove
  obtain ⟨hle, hown⟩ := h.owned i block hi (Or.inl hbody)
  rcases Nat.lt_or_eq_of_le hle with hlt | hsame
  · left
    apply hlt
  · right
    right
    use hown hsame
    intro j other hj howns hepoch
    rcases (Threads.getElem?_set_eq_some hi).mp hj with ⟨-, rfl⟩ | ⟨hne, hj⟩
    · rfl
    · exact absurd hepoch (h.apart j i other block hne hj hi howns (Or.inl hbody))

/-- A pending mark is settled by a block of its epoch, or taken over by a reclaim of a later
one. -/
theorem pending_step (hstore : store.Lawful) (h : Guarded store threads)
    {action : GuardAction Store} (hstep : guardStep store threads action = some threads')
    {epoch : Epoch} (hpending : (store.view threads.shared).mark = some (effectPendingState epoch))
    (hchanged : (store.view threads'.shared).mark ≠ (store.view threads.shared).mark) :
  ∃ i m block, action = .move i m ∧ threads.points[i]? = some block
    ∧ ((block.epoch = epoch ∧ ((block.point = .committing
          ∧ (store.view threads'.shared).mark = some effectCommitted)
        ∨ (block.point = .reverting ∧ (store.view threads'.shared).mark = none)))
      ∨ (epoch < block.epoch ∧ block.point = .reclaiming
        ∧ (store.view threads'.shared).mark = some (effectPendingState block.epoch)))
  := by
  rcases guardStep_change hstore hstep with ⟨block, -, rfl⟩ |
    ⟨i, m, block, block', shared', haction, hi, -, -, hchange, rfl⟩ | ⟨shared', hmark, -, rfl⟩
  · exact absurd rfl hchanged
  · use i, m, block, haction, hi
    rcases hchange with ⟨hmark, -, -⟩ | ⟨hfence, -, hother, hreclaims, hview⟩ |
      ⟨-, hown, hsettles, -⟩
    · exact absurd hmark hchanged
    · right
      refine ⟨?_, ?_, ?_⟩
      · apply Nat.lt_of_le_of_ne
        · apply Nat.le_trans (h.le_fence hpending) hfence
        · rintro rfl
          apply hother hpending
      · apply hreclaims
        rw [hpending]
        simp
      · rw [hview]
    · left
      rw [hown, Option.some.injEq, pendingState_inj] at hpending
      use hpending
      rcases hsettles with ⟨hpoint, hview⟩ | ⟨hpoint, hview⟩
      · left
        rw [hview]
        exact ⟨hpoint, rfl⟩
      · right
        rw [hview]
        exact ⟨hpoint, rfl⟩
  · exact absurd hmark hchanged

/-- The fence does not fall, and a mark left pending by a step is the old one, or one of an epoch
the fence had not passed. -/
theorem ascending_step (hstore : store.Lawful) {action : GuardAction Store}
    (hstep : guardStep store threads action = some threads') :
  (store.view threads.shared).fence ≤ (store.view threads'.shared).fence
    ∧ ((store.view threads'.shared).mark = (store.view threads.shared).mark
      ∨ ∀ epoch, (store.view threads'.shared).mark = some (effectPendingState epoch) →
        (store.view threads.shared).fence ≤ epoch)
  := by
  rcases guardStep_change hstore hstep with ⟨block, -, rfl⟩ |
    ⟨i, m, block, block', shared', -, -, -, -, hchange, rfl⟩ | ⟨shared', hmark, hfence, rfl⟩
  · exact ⟨Nat.le_refl _, Or.inl rfl⟩
  · rcases hchange with ⟨hmark, hfence, -⟩ | ⟨hfence, -, -, -, hview⟩ | ⟨hfence, -, hsettles, -⟩
    · exact ⟨hfence, Or.inl hmark⟩
    · dsimp only
      rw [hview]
      use hfence
      right
      intro epoch hpending
      rw [Option.some.injEq, pendingState_inj] at hpending
      rw [← hpending]
      apply hfence
    · dsimp only
      rcases hsettles with ⟨-, hview⟩ | ⟨-, hview⟩
      · rw [hview]
        use hfence
        right
        intro epoch hpending
        rw [Option.some.injEq] at hpending
        exact absurd hpending.symm (effectPendingState_ne_committed epoch)
      · rw [hview]
        use hfence
        right
        intro epoch hpending
        cases hpending
  · exact ⟨hfence, Or.inl hmark⟩

/-! ### Runs -/

/-- What holds over every run of blocks entered for one key that begins with no mark. `before`
leads to a state, `after` on from there. -/
structure GuardSafe (store : EffectStore Store) (start : Store) : Prop where
  committed_stays : ∀ {before after s t},
    TransitionSystem.run (guardStep store) ⟨start, []⟩ before = some s →
    TransitionSystem.run (guardStep store) s after = some t →
    store.getEffectState s.shared = some effectCommitted →
    store.getEffectState t.shared = some effectCommitted
  not_acquired_after_commit : ∀ {before s action t},
    TransitionSystem.run (guardStep store) ⟨start, []⟩ before = some s →
    guardStep store s action = some t →
    store.getEffectState s.shared = some effectCommitted →
    ∀ {i epoch}, Holds t i epoch → Holds s i epoch
  one_holder : ∀ {before s},
    TransitionSystem.run (guardStep store) ⟨start, []⟩ before = some s →
    ∀ {i j epoch}, Holds s i epoch → Holds s j epoch → i = j
  /-- After a body of an epoch ended cleanly, none acquires in that epoch. -/
  not_acquired_after_clean : ∀ {before s i epoch s' after t action t'},
    TransitionSystem.run (guardStep store) ⟨start, []⟩ before = some s →
    Holds s i epoch → guardStep store s (.move i (.finish .clean)) = some s' →
    TransitionSystem.run (guardStep store) s' after = some t →
    guardStep store t action = some t' → ∀ {j}, Holds t' j epoch → Holds t j epoch
  /-- A pending mark is committed or removed by a block of its epoch, or replaced by the reclaim
  of a block of a later one. -/
  settled_by_owner : ∀ {before s action t epoch},
    TransitionSystem.run (guardStep store) ⟨start, []⟩ before = some s →
    guardStep store s action = some t →
    store.getEffectState s.shared = some (effectPendingState epoch) →
    store.getEffectState t.shared ≠ store.getEffectState s.shared →
    ∃ i m block, action = .move i m ∧ s.points[i]? = some block
      ∧ ((block.epoch = epoch ∧ ((block.point = .committing
            ∧ store.getEffectState t.shared = some effectCommitted)
          ∨ (block.point = .reverting ∧ store.getEffectState t.shared = none)))
        ∨ (epoch < block.epoch ∧ block.point = .reclaiming
          ∧ store.getEffectState t.shared = some (effectPendingState block.epoch)))
  pending_ascends : ∀ {before after s t epoch epoch'},
    TransitionSystem.run (guardStep store) ⟨start, []⟩ before = some s →
    TransitionSystem.run (guardStep store) s after = some t →
    store.getEffectState s.shared = some (effectPendingState epoch) →
    store.getEffectState t.shared = some (effectPendingState epoch') → epoch ≤ epoch'

theorem guarded_run (hstore : store.Lawful) {start : Store}
    (hstart : store.getEffectState start = none) {actions : List (GuardAction Store)}
    (hrun : TransitionSystem.run (guardStep store) ⟨start, []⟩ actions = some threads) :
  Guarded store threads
  := by
  apply TransitionSystem.run_invariant _ (guarded_start hstart) hrun
  intro s action s' hs hstep
  apply hs.step hstore hstep

theorem guardSafe (hstore : store.Lawful) {start : Store}
    (hstart : store.getEffectState start = none) :
  GuardSafe store start
  := by
  constructor
  · intro before after s t _ hafter hcommitted
    apply TransitionSystem.run_invariant (P := fun threads =>
      (store.view threads.shared).mark = some effectCommitted) _ _ hafter
    · intro s action s' hs hstep
      apply committed_step hstore hstep hs
    · apply hcommitted
  · intro before s action t _ hstep hcommitted i epoch hholds
    by_contra hnot
    obtain ⟨-, huncommitted, -⟩ := acquired_step hstore hstep hholds hnot
    exact absurd hcommitted huncommitted
  · rintro before s hbefore i j epoch ⟨block, hi, hbody, rfl⟩ ⟨block', hj, hbody', hsame⟩
    by_contra hne
    apply (guarded_run hstore hstart hbefore).apart i j block block' hne hi hj (Or.inl hbody)
      (Or.inl hbody')
    apply hsame.symm
  · intro before s i epoch s' after t action t' hbefore hholds hclean hafter hstep j hholds'
    have hguarded := guarded_run hstore hstart hbefore
    have hspent : Guarded store t ∧ Spent store epoch t := by
      apply TransitionSystem.run_invariant (P := fun threads =>
        Guarded store threads ∧ Spent store epoch threads) _ _ hafter
      · rintro s action s' ⟨hs, hspent⟩ hstep
        exact ⟨hs.step hstore hstep, spent_step hstore hs hspent hstep⟩
      · exact ⟨hguarded.step hstore hclean, spent_of_clean hguarded hholds hclean⟩
    apply not_acquired_of_spent hstore hspent.2 hstep hholds'
  · intro before s action t epoch hbefore hstep hpending hchanged
    apply pending_step hstore (guarded_run hstore hstart hbefore) hstep hpending hchanged
  · intro before after s t epoch epoch' hbefore hafter hpending hpending'
    have hle := (guarded_run hstore hstart hbefore).le_fence hpending
    have hascends : (store.view s.shared).fence ≤ (store.view t.shared).fence
        ∧ ((store.view t.shared).mark = (store.view s.shared).mark
          ∨ ∀ epoch, (store.view t.shared).mark = some (effectPendingState epoch) →
            (store.view s.shared).fence ≤ epoch) := by
      apply TransitionSystem.run_invariant (P := fun threads : Threads Store GuardBlock =>
        (store.view s.shared).fence ≤ (store.view threads.shared).fence
          ∧ ((store.view threads.shared).mark = (store.view s.shared).mark
            ∨ ∀ epoch, (store.view threads.shared).mark = some (effectPendingState epoch) →
              (store.view s.shared).fence ≤ epoch)) _ _ hafter
      · rintro u action u' ⟨hfence, hmark⟩ hstep
        obtain ⟨hfence', hmark'⟩ := ascending_step hstore hstep
        use Nat.le_trans hfence hfence'
        rcases hmark' with hsame | hnew
        · rw [hsame]
          apply hmark
        · right
          intro epoch hepoch
          apply Nat.le_trans hfence (hnew epoch hepoch)
      · exact ⟨Nat.le_refl _, Or.inl rfl⟩
    rcases hascends.2 with hsame | hnew
    · have hmark : some (effectPendingState epoch') = some (effectPendingState epoch) :=
        hpending'.symm.trans (hsame.trans hpending)
      rw [Option.some.injEq, pendingState_inj] at hmark
      apply Nat.le_of_eq hmark.symm
    · apply Nat.le_trans hle (hnew epoch' hpending')

end

/-- Over either store, an effect is run by one block of an epoch at a time and never again once
it is committed, however the blocks, their failures and the epochs interleave. -/
theorem effect_runs_once (sessionId : SessionId) (effectKey : String) :
  (∀ state : SessionState, state.getEffectState effectKey = none →
      GuardSafe (.memory effectKey) state)
    ∧ ∀ session : RedisSession, session.getEffectState effectKey = none →
      GuardSafe (.redis sessionId effectKey) session
  := by
  constructor
  · intro state hstate
    apply guardSafe (memory_lawful effectKey)
    rw [EffectStore.memory]
    simp only [hstate, Option.map_none]
  · intro session hsession
    apply guardSafe (redis_lawful sessionId effectKey) hsession

end Orcastork
