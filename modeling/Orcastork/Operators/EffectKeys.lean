import Orcastork.Library.Delimited
import Orcastork.Operators.EffectSafety

/-!
# The keys of effects

`EffectGuard.once` stores the mark of an effect under the id of its operator and the effect's own
key, joined by a colon. Nothing keeps the colon out of either, so that two effects can be stored
under one key (`Overlaps`).

A session runs the blocks of all its effects over one store. As long as no two of them overlap,
what becomes of an effect is a function of its own operations (`replay`); which of them are
fenced counts among what happens to them, for the fence is the session's.
-/

namespace Orcastork

/-! ### Effects and their keys -/

/-- An effect of an operator. -/
structure OwnedEffect where
  operatorId : OperatorId
  effectKey : String
  deriving DecidableEq, Repr

namespace OwnedEffect

/-- The key the mark of an effect is stored under. -/
def namespaced (effect : OwnedEffect) : String := effect.operatorId ++ ":" ++ effect.effectKey

/-- The id of an operator is cut at a colon of another one's, and the key of its effect begins
with what is cut off. -/
def Overlaps (effect other : OwnedEffect) : Prop :=
  ∃ text, other.operatorId = effect.operatorId ++ ":" ++ text
    ∧ effect.effectKey = text ++ ":" ++ other.effectKey

/-- Two effects are stored under one key exactly when they overlap. -/
theorem namespaced_eq_iff {effect other : OwnedEffect} :
  effect.namespaced = other.namespaced
    ↔ effect = other ∨ effect.Overlaps other ∨ other.Overlaps effect
  := by
  obtain ⟨operatorId, effectKey⟩ := effect
  obtain ⟨operatorId', effectKey'⟩ := other
  simp only [namespaced, Overlaps, OwnedEffect.mk.injEq, ← String.toList_inj, String.toList_append]
  have hcut := @Delimited.append_cons_eq_iff Char ':' operatorId.toList operatorId'.toList
    effectKey.toList effectKey'.toList
  have hcolon : (":" : String).toList = [':'] := by decide
  simp only [hcolon, List.append_assoc, List.singleton_append]
  rw [hcut]
  constructor
  · rintro (⟨hid, hkey⟩ | ⟨text, hid, hkey⟩ | ⟨text, hid, hkey⟩)
    · left
      use hid, hkey
    · right
      left
      use String.ofList text
      rw [String.toList_ofList]
      use hid, hkey
    · right
      right
      use String.ofList text
      rw [String.toList_ofList]
      use hid, hkey
  · rintro (⟨hid, hkey⟩ | ⟨text, hid, hkey⟩ | ⟨text, hid, hkey⟩)
    · left
      use hid, hkey
    · right
      left
      use text.toList, hid, hkey
    · right
      right
      use text.toList, hid, hkey

/-- Effects that overlap are of different operators. -/
theorem Overlaps.ne {effect other : OwnedEffect} (h : effect.Overlaps other) :
  effect.operatorId ≠ other.operatorId
  := by
  obtain ⟨text, hid, -⟩ := h
  intro hsame
  have hlength := congrArg String.length (hsame.trans hid)
  rw [String.length_append, String.length_append] at hlength
  have hcolon : (":" : String).length = 1 := by decide
  omega

end OwnedEffect

/-! ### The effects of a session -/

/-- The calls of the guards of a session on its store. -/
structure EffectStores (Store : Type) where
  guard : String → EffectStore Store
  fence : Store → Epoch
  /-- Two states have the same marks. -/
  sameMarks : Store → Store → Bool

namespace EffectStores

/-- The in-memory store. -/
def memory : EffectStores SessionState where
  guard := EffectStore.memory
  fence := SessionState.maxEpoch
  sameMarks state next := decide (next.effects.items = state.effects.items)

/-- The Redis store. -/
def redis (sessionId : SessionId) : EffectStores RedisSession where
  guard := EffectStore.redis sessionId
  fence := RedisSession.epoch
  sameMarks session next := decide (next.fx.items = session.fx.items)

variable {Store : Type} (stores : EffectStores Store)

/-- The mark of an effect. -/
def mark (state : Store) (effect : OwnedEffect) : Option String :=
  (stores.guard effect.namespaced).getEffectState state

/-- Stores whose guards answer by what they can see, and leave each other's marks. -/
structure Lawful : Prop where
  guard : ∀ effectKey, (stores.guard effectKey).Lawful
  fence : ∀ effectKey, (stores.guard effectKey).fence = stores.fence
  sameMarks : ∀ {state next}, stores.sameMarks state next = true → ∀ effectKey,
    (stores.guard effectKey).getEffectState next = (stores.guard effectKey).getEffectState state
  claim : ∀ {effectKey effectKey'}, effectKey' ≠ effectKey → ∀ state epoch reclaimStale,
    (stores.guard effectKey').getEffectState
        ((stores.guard effectKey).claimEffect state epoch reclaimStale).2
      = (stores.guard effectKey').getEffectState state
  commit : ∀ {effectKey effectKey'}, effectKey' ≠ effectKey → ∀ state epoch,
    (stores.guard effectKey').getEffectState ((stores.guard effectKey).commitEffect state epoch)
      = (stores.guard effectKey').getEffectState state
  revert : ∀ {effectKey effectKey'}, effectKey' ≠ effectKey → ∀ state epoch,
    (stores.guard effectKey').getEffectState ((stores.guard effectKey).revertEffect state epoch)
      = (stores.guard effectKey').getEffectState state

end EffectStores

/-- A session: its store, and the blocks entered for each effect. -/
structure OnceSession (Store : Type) where
  shared : Store
  blocks : OwnedEffect → List GuardBlock

/-- What happens to an effect: a block is entered for it, or one of its blocks makes a move. -/
inductive OnceAction where
  | enter (epoch : Epoch) (onUnknown : EffectRecovery)
  | move (block : ℕ) (move : GuardMove)
  deriving DecidableEq, Repr

/-- What happens in a session: something to an effect, or a write elsewhere. -/
inductive OnceEvent (Store : Type) where
  | once (effect : OwnedEffect) (action : OnceAction)
  | elsewhere (next : Store)

/-- What happens to an effect, as its guard sees it. -/
def OnceAction.toGuard (Store : Type) : OnceAction → GuardAction Store
  | .enter epoch onUnknown => .enter epoch onUnknown
  | .move i m => .move i m

namespace OnceSession

variable {Store : Type} (stores : EffectStores Store)

/-- A session with no block entered. -/
def fresh (start : Store) : OnceSession Store := ⟨start, fun _ => []⟩

/-- The blocks of an effect over the store. -/
def threads (session : OnceSession Store) (effect : OwnedEffect) : Threads Store GuardBlock :=
  ⟨session.shared, session.blocks effect⟩

/-- The session after an event, if it can occur. A write elsewhere leaves the marks. -/
def step (session : OnceSession Store) : OnceEvent Store → Option (OnceSession Store)
  | .once effect action =>
    (guardStep (stores.guard effect.namespaced) (session.threads effect)
        (action.toGuard Store)).map
      (fun threads => ⟨threads.shared, Function.update session.blocks effect threads.points⟩)
  | .elsewhere next =>
    if stores.sameMarks session.shared next = true
        ∧ stores.fence session.shared ≤ stores.fence next then
      some { session with shared := next }
    else none

/-- A block that moves is fenced: its epoch has been passed. -/
def fenced (session : OnceSession Store) (effect : OwnedEffect) : OnceAction → Bool
  | .enter _ _ => false
  | .move i _ =>
    match (session.blocks effect)[i]? with
    | none => false
    | some block => decide (block.epoch < stores.fence session.shared)

/-- The history of an effect: what happens to it, and whether it is fenced. -/
def history (effect : OwnedEffect) : OnceSession Store → List (OnceEvent Store) →
    List (OnceAction × Bool)
  | _, [] => []
  | session, event :: events =>
    let later :=
      match session.step stores event with
      | none => []
      | some session' => history effect session' events
    match event with
    | .once other action =>
      if other = effect then (action, session.fenced stores effect action) :: later else later
    | .elsewhere _ => later

end OnceSession

/-! ### The stores keep the marks apart -/

theorem memory_getEffectState (effectKey : String) (state : SessionState) :
  (EffectStore.memory effectKey).getEffectState state
    = (state.effects.get? effectKey).map EffectState.text
  := rfl

theorem memory_stores_lawful :
  EffectStores.memory.Lawful
  := by
  constructor
  · apply memory_lawful
  · intro effectKey
    rfl
  · intro state next hsame effectKey
    rw [EffectStores.memory, decide_eq_true_eq] at hsame
    rw [EffectStores.memory, memory_getEffectState, memory_getEffectState, Dict.ext_items hsame]
  · intro effectKey effectKey' hne state epoch reclaimStale
    rw [EffectStores.memory, memory_getEffectState, memory_getEffectState]
    rcases Nat.lt_or_ge epoch state.maxEpoch with hlt | hle
    · simp only [EffectStore.memory, SessionState.claimEffect, SessionState.guardEpoch_of_lt hlt,
        bind, Except.bind]
    · rw [memory_claimEffect hle]
      cases state.effects.get? effectKey with
      | none => simp only [Dict.get?_set_of_ne _ hne.symm]
      | some stored =>
          simp only
          split_ifs
          · rfl
          · rfl
          · simp only [Dict.get?_set_of_ne _ hne.symm]
          · rfl
  · intro effectKey effectKey' hne state epoch
    rw [EffectStores.memory, memory_getEffectState, memory_getEffectState]
    rcases Nat.lt_or_ge epoch state.maxEpoch with hlt | hle
    · simp only [EffectStore.memory, SessionState.commitEffect, SessionState.guardEpoch_of_lt hlt,
        bind, Except.bind]
    · simp only [EffectStore.memory, SessionState.commitEffect, SessionState.guardEpoch_of_le hle,
        bind, Except.bind, pure, Except.pure]
      by_cases hown : state.effects.get? effectKey = some (.pending epoch)
          ∨ state.effects.get? effectKey = some .committed
      · simp only [if_pos hown, Dict.get?_set_of_ne _ hne.symm]
      · simp only [if_neg hown]
  · intro effectKey effectKey' hne state epoch
    rw [EffectStores.memory, memory_getEffectState, memory_getEffectState]
    rcases Nat.lt_or_ge epoch state.maxEpoch with hlt | hle
    · simp only [EffectStore.memory, SessionState.revertEffect, SessionState.guardEpoch_of_lt hlt,
        bind, Except.bind]
    · simp only [EffectStore.memory, SessionState.revertEffect, SessionState.guardEpoch_of_le hle,
        bind, Except.bind, pure, Except.pure]
      by_cases hown : state.effects.get? effectKey = some (.pending epoch)
      · simp only [if_pos hown, Dict.get?_erase, if_neg hne.symm]
      · simp only [if_neg hown]

section

variable {sessionId : SessionId} {effectKey effectKey' : String} {session : RedisSession}
variable {epoch : Epoch}

/-- A script that leaves the mark of another key leaves it also when it is run. -/
theorem runScript_fx {script : Epoch → RedisSession → ℤ × RedisSession}
    (hscript : (script epoch session).2.fx.get? effectKey' = session.fx.get? effectKey') :
  (session.runScript sessionId epoch script none).2.fx.get? effectKey'
    = session.fx.get? effectKey'
  := by
  rw [RedisSession.runScript, if_neg (by intro h; cases h)]
  dsimp only
  split
  · apply hscript
  · rw [if_neg (by intro h; cases h)]
    apply hscript

/-- A guarded script leaves the mark of another key if its body does. -/
theorem guarded_fx {body : RedisSession → ℤ × RedisSession}
    (hbody : ∀ session, (body session).2.fx.get? effectKey' = session.fx.get? effectKey') :
  (session.guarded epoch body).2.fx.get? effectKey' = session.fx.get? effectKey'
  := by
  rw [RedisSession.guarded]
  split_ifs
  · rfl
  · rw [hbody]
  · rw [hbody]

theorem redis_stores_lawful (sessionId : SessionId) :
  (EffectStores.redis sessionId).Lawful
  := by
  constructor
  · apply redis_lawful
  · intro effectKey
    rfl
  · intro session next hsame effectKey
    rw [EffectStores.redis, decide_eq_true_eq] at hsame
    change next.fx.get? effectKey = session.fx.get? effectKey
    rw [Dict.ext_items hsame]
  · intro effectKey effectKey' hne session epoch reclaimStale
    change (session.runScript sessionId epoch (RedisSession.claimEffectScript effectKey reclaimStale)
      none).2.fx.get? effectKey' = session.fx.get? effectKey'
    apply runScript_fx
    apply guarded_fx
    intro session
    dsimp only
    cases session.fx.get? effectKey with
    | none => simp only [Dict.get?_set_of_ne _ hne.symm]
    | some stored =>
        dsimp only
        split_ifs
        · rfl
        · rfl
        · simp only [Dict.get?_set_of_ne _ hne.symm]
        · rfl
  · intro effectKey effectKey' hne session epoch
    change (session.runScript sessionId epoch (RedisSession.commitEffectScript effectKey)
      none).2.fx.get? effectKey' = session.fx.get? effectKey'
    apply runScript_fx
    apply guarded_fx
    intro session
    split_ifs
    · simp only [Dict.get?_set_of_ne _ hne.symm]
    · rfl
  · intro effectKey effectKey' hne session epoch
    change (session.runScript sessionId epoch (RedisSession.revertEffectScript effectKey)
      none).2.fx.get? effectKey' = session.fx.get? effectKey'
    apply runScript_fx
    apply guarded_fx
    intro session
    split_ifs
    · simp only [Dict.get?_erase, if_neg hne.symm]
    · rfl

end

/-! ### What an effect goes through -/

/-- The mark of a key and the fence as a store of their own. -/
def EffectStore.marks : EffectStore MarkView where
  claimEffect view epoch reclaimStale := view.claim epoch reclaimStale
  commitEffect view epoch := view.settle epoch (some effectCommitted)
  revertEffect view epoch := view.settle epoch none
  getEffectState := MarkView.mark
  fence := MarkView.fence

/-- What becomes of the mark of an effect and of its blocks when something happens to it, fenced
or not. -/
def replay (known : Option String × List GuardBlock) :
    OnceAction × Bool → Option String × List GuardBlock
  | (.enter epoch onUnknown, _) => (known.1, known.2 ++ [.entered epoch onUnknown])
  | (.move i m, fenced) =>
    match known.2[i]? with
    | none => known
    | some block =>
      match block.move EffectStore.marks ⟨known.1, if fenced then block.epoch + 1 else 0⟩ m with
      | none => known
      | some (view, block') => (view.mark, known.2.set i block')

section

variable {Store : Type} {store : EffectStore Store}

/-- A claim is answered by the mark and by whether it is fenced. -/
theorem MarkView.claim_congr {view view' : MarkView} {epoch : Epoch} (reclaimStale : Bool)
    (hmark : view.mark = view'.mark) (hfence : epoch < view.fence ↔ epoch < view'.fence) :
  (view.claim epoch reclaimStale).1 = (view'.claim epoch reclaimStale).1
    ∧ (view.claim epoch reclaimStale).2.mark = (view'.claim epoch reclaimStale).2.mark
  := by
  obtain ⟨mark, fence⟩ := view
  obtain ⟨mark', fence'⟩ := view'
  dsimp only at hmark hfence
  subst hmark
  rw [claim, claim]
  by_cases hlt : epoch < fence
  · rw [if_pos hlt, if_pos (hfence.mp hlt)]
    constructor
    · rfl
    · rfl
  · rw [if_neg hlt, if_neg (hlt ∘ hfence.mpr)]
    constructor
    · rfl
    · rfl

/-- A mark is settled by the mark and by whether it is fenced. -/
theorem MarkView.settle_congr {view view' : MarkView} {epoch : Epoch} (settled : Option String)
    (hmark : view.mark = view'.mark) (hfence : epoch < view.fence ↔ epoch < view'.fence) :
  (view.settle epoch settled).mark = (view'.settle epoch settled).mark
  := by
  rw [settle, settle]
  by_cases hlt : epoch < view.fence
  · rw [if_pos hlt, if_pos (hfence.mp hlt), hmark]
  · rw [if_neg hlt, if_neg (hlt ∘ hfence.mpr), hmark]

/-- A call ends alike over two stores with the same mark before it and after it. -/
theorem callMove_marks {state state' next : Store} {view view' : MarkView}
    {block block' : GuardBlock} {ending : CallEnding} {point : GuardPoint}
    (hmark : view.mark = store.getEffectState state)
    (hnext : view'.mark = store.getEffectState next)
    (h : some (block.callMove state ending next point) = some (state', block')) :
  ∃ left, some (block.callMove view ending view' point) = some (left, block')
    ∧ left.mark = store.getEffectState state'
  := by
  cases ending with
  | answered =>
      cases h
      use view', rfl
  | withoutEffect =>
      cases h
      use view, rfl
  | unanswered =>
      cases h
      use view', rfl

/-- A move of a block is a function of the mark and of whether the block is fenced. -/
theorem move_marks (hstore : store.Lawful) {state state' : Store} {block block' : GuardBlock}
    {m : GuardMove} (view : MarkView) (hmark : view.mark = store.getEffectState state)
    (hfence : block.epoch < view.fence ↔ block.epoch < store.fence state)
    (h : block.move store state m = some (state', block')) :
  ∃ view', block.move EffectStore.marks view m = some (view', block')
    ∧ view'.mark = store.getEffectState state'
  := by
  have hview : view.mark = (store.view state).mark := hmark
  have hclaim : ∀ reclaimStale,
      (view.claim block.epoch reclaimStale).1
          = (store.claimEffect state block.epoch reclaimStale).1
        ∧ (view.claim block.epoch reclaimStale).2.mark
          = store.getEffectState (store.claimEffect state block.epoch reclaimStale).2 := by
    intro reclaimStale
    obtain ⟨hanswer, hleft⟩ := MarkView.claim_congr reclaimStale hview hfence
    rw [← hstore.claim] at hanswer hleft
    use hanswer, hleft
  have hcommit := MarkView.settle_congr (some effectCommitted) hview hfence
  rw [← hstore.commit] at hcommit
  have hrevert := MarkView.settle_congr none hview hfence
  rw [← hstore.revert] at hrevert
  cases m with
  | call ending =>
      cases hpoint : block.point with
      | claiming =>
          obtain ⟨hanswer, hleft⟩ := hclaim false
          simp only [GuardBlock.move, hpoint, EffectStore.marks, hanswer] at h ⊢
          apply callMove_marks hmark hleft h
      | readingStale =>
          simp only [GuardBlock.move, hpoint] at h ⊢
          apply callMove_marks hmark hmark h
      | reclaiming =>
          obtain ⟨hanswer, hleft⟩ := hclaim true
          simp only [GuardBlock.move, hpoint, EffectStore.marks, hanswer] at h ⊢
          apply callMove_marks hmark hleft h
      | committing =>
          simp only [GuardBlock.move, hpoint, EffectStore.marks] at h ⊢
          apply callMove_marks hmark hcommit h
      | reverting =>
          simp only [GuardBlock.move, hpoint, EffectStore.marks] at h ⊢
          apply callMove_marks hmark hrevert h
      | body acquired =>
          simp only [GuardBlock.move, hpoint] at h
          cases h
      | left =>
          simp only [GuardBlock.move, hpoint] at h
          cases h
  | finish ending =>
      cases hpoint : block.point with
      | body acquired =>
          simp only [GuardBlock.move, hpoint] at h ⊢
          cases h
          use view, rfl
      | _ =>
          simp only [GuardBlock.move, hpoint] at h
          cases h

/-- What happens to an effect acts on its mark and its blocks as a replay does. -/
theorem guardStep_replay (hstore : store.Lawful) {threads threads' : Threads Store GuardBlock}
    {action : OnceAction} (fenced : Bool)
    (hfenced : ∀ i m block, action = .move i m → threads.points[i]? = some block →
      fenced = decide (block.epoch < store.fence threads.shared))
    (h : guardStep store threads (action.toGuard Store) = some threads') :
  replay (store.getEffectState threads.shared, threads.points) (action, fenced)
    = (store.getEffectState threads'.shared, threads'.points)
  := by
  cases action with
  | enter epoch onUnknown =>
      cases h
      rfl
  | move i m =>
      obtain ⟨block, shared', block', hi, hmove, rfl⟩ := Threads.advance_eq_some.mp h
      have hfence : block.epoch < (if fenced then block.epoch + 1 else 0)
          ↔ block.epoch < store.fence threads.shared := by
        rw [hfenced i m block rfl hi]
        by_cases hlt : block.epoch < store.fence threads.shared
        · simp [hlt]
        · simp [hlt]
      obtain ⟨view, hview, hmark⟩ := move_marks hstore
        ⟨store.getEffectState threads.shared, if fenced then block.epoch + 1 else 0⟩ rfl hfence hmove
      simp only [replay, hi, hview, hmark]

/-- A move of a block leaves what every call of its guard leaves. -/
theorem move_keeps (kept : Store → Prop) {state state' : Store} {block block' : GuardBlock}
    {m : GuardMove} (hkept : kept state)
    (hclaim : ∀ epoch reclaimStale, kept (store.claimEffect state epoch reclaimStale).2)
    (hcommit : ∀ epoch, kept (store.commitEffect state epoch))
    (hrevert : ∀ epoch, kept (store.revertEffect state epoch))
    (h : block.move store state m = some (state', block')) :
  kept state'
  := by
  have hcall : ∀ {ending next point}, kept next →
      some (block.callMove state ending next point) = some (state', block') → kept state' := by
    intro ending next point hnext hends
    cases ending with
    | answered =>
        cases hends
        apply hnext
    | withoutEffect =>
        cases hends
        apply hkept
    | unanswered =>
        cases hends
        apply hnext
  cases m with
  | call ending =>
      cases hpoint : block.point with
      | claiming =>
          simp only [GuardBlock.move, hpoint] at h
          apply hcall (hclaim _ _) h
      | readingStale =>
          simp only [GuardBlock.move, hpoint] at h
          apply hcall hkept h
      | reclaiming =>
          simp only [GuardBlock.move, hpoint] at h
          apply hcall (hclaim _ _) h
      | committing =>
          simp only [GuardBlock.move, hpoint] at h
          apply hcall (hcommit _) h
      | reverting =>
          simp only [GuardBlock.move, hpoint] at h
          apply hcall (hrevert _) h
      | body acquired =>
          simp only [GuardBlock.move, hpoint] at h
          cases h
      | left =>
          simp only [GuardBlock.move, hpoint] at h
          cases h
  | finish ending =>
      simp only [GuardBlock.move] at h
      split at h
      · cases h
        apply hkept
      · cases h

end

/-! ### Sessions whose effects do not overlap -/

namespace OnceSession

variable {Store : Type} {stores : EffectStores Store} {session session' : OnceSession Store}

/-- An event concerns the effects of a set only. -/
def Concerns (used : Set OwnedEffect) (event : OnceEvent Store) : Prop :=
  ∀ effect action, event = .once effect action → effect ∈ used

/-- What is known of an effect: its mark, and where its blocks stand. -/
def known (stores : EffectStores Store) (session : OnceSession Store) (effect : OwnedEffect) :
    Option String × List GuardBlock :=
  (stores.mark session.shared effect, session.blocks effect)

theorem step_once {effect : OwnedEffect} {action : OnceAction}
    (h : session.step stores (.once effect action) = some session') :
  ∃ threads, guardStep (stores.guard effect.namespaced) (session.threads effect)
      (action.toGuard Store) = some threads
    ∧ session' = ⟨threads.shared, Function.update session.blocks effect threads.points⟩
  := by
  rw [step, Option.map_eq_some_iff] at h
  obtain ⟨threads, hthreads, rfl⟩ := h
  use threads, hthreads

/-- What happens to an effect acts on it as a replay does. -/
theorem known_step_own (hstores : stores.Lawful) {effect : OwnedEffect} {action : OnceAction}
    (h : session.step stores (.once effect action) = some session') :
  session'.known stores effect
    = replay (session.known stores effect) (action, session.fenced stores effect action)
  := by
  obtain ⟨threads, hthreads, rfl⟩ := step_once h
  have hreplay := guardStep_replay (hstores.guard effect.namespaced)
    (session.fenced stores effect action) (by
      rintro i m block rfl hi
      change (session.blocks effect)[i]? = some block at hi
      rw [fenced, hi, hstores.fence]
      rfl) hthreads
  rw [known, known]
  dsimp only
  rw [Function.update_self]
  apply hreplay.symm

/-- What happens to an effect leaves the mark of one stored under another key. -/
theorem mark_step_other (hstores : stores.Lawful) {effect other : OwnedEffect}
    {action : OnceAction} (hne : other.namespaced ≠ effect.namespaced)
    (h : session.step stores (.once effect action) = some session') :
  stores.mark session'.shared other = stores.mark session.shared other
  := by
  obtain ⟨threads, hthreads, rfl⟩ := step_once h
  cases action with
  | enter epoch onUnknown =>
      cases hthreads
      rfl
  | move i m =>
      obtain ⟨block, shared', block', -, hmove, rfl⟩ := Threads.advance_eq_some.mp hthreads
      apply move_keeps (fun state => stores.mark state other = stores.mark session.shared other)
        rfl _ _ _ hmove
      · intro epoch reclaimStale
        apply hstores.claim hne
      · intro epoch
        apply hstores.commit hne
      · intro epoch
        apply hstores.revert hne

/-- What happens to an effect leaves what is known of one stored under another key. -/
theorem known_step_other (hstores : stores.Lawful) {effect other : OwnedEffect}
    {action : OnceAction} (hne : other.namespaced ≠ effect.namespaced)
    (h : session.step stores (.once effect action) = some session') :
  session'.known stores other = session.known stores other
  := by
  rw [known, known, mark_step_other hstores hne h]
  obtain ⟨threads, -, rfl⟩ := step_once h
  dsimp only
  rw [Function.update_of_ne]
  rintro rfl
  apply hne rfl

/-- A write elsewhere leaves what is known of every effect. -/
theorem known_step_elsewhere (hstores : stores.Lawful) {next : Store} (effect : OwnedEffect)
    (h : session.step stores (.elsewhere next) = some session') :
  session'.known stores effect = session.known stores effect
  := by
  rw [step] at h
  split at h
  · rename_i hwrite
    cases h
    rw [known, known, EffectStores.mark, EffectStores.mark, hstores.sameMarks hwrite.1]
  · cases h

/-- What is known of an effect after a run is what its history makes of what was known. -/
theorem known_run (hstores : stores.Lawful) {effect : OwnedEffect} {used : Set OwnedEffect}
    (hapart : ∀ other ∈ used, other ≠ effect → other.namespaced ≠ effect.namespaced)
    {events : List (OnceEvent Store)} (hused : ∀ event ∈ events, Concerns used event)
    (hrun : TransitionSystem.run (step stores) session events = some session') :
  session'.known stores effect
    = (history stores effect session events).foldl replay (session.known stores effect)
  := by
  induction events generalizing session with
  | nil =>
      cases hrun
      rfl
  | cons event events ih =>
      obtain ⟨between, hstep, hrest⟩ := TransitionSystem.run_cons_eq_some.mp hrun
      have hlater := ih (fun event h => hused event (List.mem_cons_of_mem _ h)) hrest
      simp only [hlater, history, hstep]
      cases event with
      | once other action =>
          dsimp only
          by_cases hown : other = effect
          · subst hown
            rw [if_pos rfl, List.foldl_cons, known_step_own hstores hstep]
          · have hother := hused _ List.mem_cons_self other action rfl
            rw [if_neg hown, known_step_other hstores (hapart other hother hown).symm hstep]
      | elsewhere next =>
          rw [known_step_elsewhere hstores effect hstep]

/-- The effects of a set do not interfere in the sessions that begin with a store. -/
structure Isolated (stores : EffectStores Store) (start : Store) (used : Set OwnedEffect) :
    Prop where
  /-- What happens to an effect leaves the marks of the others. -/
  unchanged : ∀ {events session effect action session' other},
    (∀ event ∈ events, Concerns used event) →
    TransitionSystem.run (step stores) (fresh start) events = some session →
    effect ∈ used → session.step stores (.once effect action) = some session' →
    other ∈ used → other ≠ effect →
    stores.mark session'.shared other = stores.mark session.shared other
  /-- Where its history is the same, an effect has the same mark and its blocks stand alike. -/
  by_history : ∀ {events events' session session' effect}, effect ∈ used →
    (∀ event ∈ events, Concerns used event) → (∀ event ∈ events', Concerns used event) →
    TransitionSystem.run (step stores) (fresh start) events = some session →
    TransitionSystem.run (step stores) (fresh start) events' = some session' →
    history stores effect (fresh start) events = history stores effect (fresh start) events' →
    session.known stores effect = session'.known stores effect

/-- Effects that do not overlap do not interfere. -/
theorem isolated_of_not_overlaps (hstores : stores.Lawful) {used : Set OwnedEffect}
    (hused : ∀ effect ∈ used, ∀ other ∈ used, ¬effect.Overlaps other) (start : Store) :
  Isolated stores start used
  := by
  have hapart : ∀ effect ∈ used, ∀ other ∈ used, other ≠ effect →
      other.namespaced ≠ effect.namespaced := by
    intro effect heffect other hother hne hsame
    rcases OwnedEffect.namespaced_eq_iff.mp hsame with heq | hover | hover
    · apply hne heq
    · apply hused other hother effect heffect hover
    · apply hused effect heffect other hother hover
  constructor
  · intro events session effect action session' other _ _ heffect hstep hother hne
    apply mark_step_other hstores (hapart effect heffect other hother hne) hstep
  · intro events events' session session' effect heffect hevents hevents' hrun hrun' hsame
    rw [known_run hstores (hapart effect heffect) hevents hrun,
      known_run hstores (hapart effect heffect) hevents' hrun', hsame]

/-- A claim for an effect changes the mark of one that is stored under the same key. -/
theorem not_isolated_of_overlaps (hstores : stores.Lawful) {used : Set OwnedEffect}
    {effect other : OwnedEffect} (heffect : effect ∈ used) (hother : other ∈ used)
    (hover : effect.Overlaps other) {start : Store}
    (hblank : ∀ effectKey, (stores.guard effectKey).view start = ⟨none, 0⟩) :
  ¬Isolated stores start used
  := by
  intro hisolated
  have hsame : effect.namespaced = other.namespaced := by
    rw [OwnedEffect.namespaced_eq_iff]
    right
    left
    apply hover
  have hne : other ≠ effect := by
    rintro rfl
    apply hover.ne rfl
  let claim : OnceEvent Store := .once effect (.move 0 (.call .answered))
  let entered : OnceSession Store :=
    ⟨start, Function.update (fun _ => []) effect [.entered 0 .rerun]⟩
  have hconcerns : ∀ event ∈ [(.once effect (.enter 0 .rerun) : OnceEvent Store)],
      Concerns used event := by
    intro event hevent effect' action h
    rw [List.mem_singleton.mp hevent] at h
    cases h
    apply heffect
  obtain ⟨claimed, hclaimed⟩ : ∃ claimed, entered.step stores claim = some claimed := by
    simp [entered, claim, step, threads, guardStep, OnceAction.toGuard, Threads.advance,
      GuardBlock.move, GuardBlock.entered]
  have hentered : TransitionSystem.run (step stores) (fresh start)
      [.once effect (.enter 0 .rerun)] = some entered := rfl
  have hmark := hisolated.unchanged hconcerns hentered heffect hclaimed hother hne
  have hknown := known_step_own hstores hclaimed
  have hnone : ∀ effectKey, (stores.guard effectKey).getEffectState start = none := by
    intro effectKey
    apply congrArg MarkView.mark (hblank effectKey)
  have hfence : stores.fence start = 0 := by
    rw [← hstores.fence ""]
    apply congrArg MarkView.fence (hblank "")
  have hopen : entered.fenced stores effect (.move 0 (.call .answered)) = false := by
    simp [entered, fenced, hfence]
  have hbefore : entered.known stores effect = (none, [.entered 0 .rerun]) := by
    rw [known, EffectStores.mark, hnone]
    simp only [entered, Function.update_self]
  rw [hopen, hbefore] at hknown
  have htaken : stores.mark claimed.shared effect = some (effectPendingState 0) :=
    congrArg Prod.fst hknown
  rw [EffectStores.mark, EffectStores.mark, ← hsame, hnone] at hmark
  cases htaken.symm.trans hmark

end OnceSession

/-- Over either store, the effects of a set do not interfere exactly when no two of them
overlap. -/
theorem effects_isolated_iff (sessionId : SessionId) (used : Set OwnedEffect) :
  ((∀ start, OnceSession.Isolated .memory start used)
      ↔ ∀ effect ∈ used, ∀ other ∈ used, ¬effect.Overlaps other)
    ∧ ((∀ start, OnceSession.Isolated (.redis sessionId) start used)
      ↔ ∀ effect ∈ used, ∀ other ∈ used, ¬effect.Overlaps other)
  := by
  constructor
  · constructor
    · intro hisolated effect heffect other hother hover
      apply OnceSession.not_isolated_of_overlaps memory_stores_lawful heffect hother hover _
        (hisolated .initial)
      intro effectKey
      rfl
    · intro hused start
      apply OnceSession.isolated_of_not_overlaps memory_stores_lawful hused
  · constructor
    · intro hisolated effect heffect other hother hover
      apply OnceSession.not_isolated_of_overlaps (redis_stores_lawful sessionId) heffect hother
        hover _ (hisolated .initial)
      intro effectKey
      rfl
    · intro hused start
      apply OnceSession.isolated_of_not_overlaps (redis_stores_lawful sessionId) hused

/-- A one-time password sent by the operator `mail` over `sms`. -/
def mailSms : OwnedEffect := ⟨"mail", "sms:otp"⟩

/-- A one-time password sent by the operator `mail:sms`. -/
def smsMail : OwnedEffect := ⟨"mail:sms", "otp"⟩

/-- A block of `smsMail` that makes its claim. -/
def claimsSmsMail : List (OnceEvent SessionState) :=
  [.once smsMail (.enter 1 .rerun), .once smsMail (.move 0 (.call .answered))]

/-- The operator `mail` sends its password, and the block of `smsMail` that comes after it does
not acquire, though nothing else has happened to its effect than what makes it acquire alone. -/
theorem smsMail_suppressed :
  mailSms ≠ smsMail
    ∧ ∃ before after alone : OnceSession SessionState,
      TransitionSystem.run (OnceSession.step .memory) (OnceSession.fresh .initial)
          [.once mailSms (.enter 1 .rerun), .once mailSms (.move 0 (.call .answered)),
            .once mailSms (.move 0 (.finish .clean)), .once mailSms (.move 0 (.call .answered))]
        = some before
      ∧ EffectStores.memory.mark before.shared smsMail = some effectCommitted
      ∧ TransitionSystem.run (OnceSession.step .memory) before claimsSmsMail = some after
      ∧ TransitionSystem.run (OnceSession.step .memory) (OnceSession.fresh .initial) claimsSmsMail
        = some alone
      ∧ OnceSession.history .memory smsMail before claimsSmsMail
        = OnceSession.history .memory smsMail (OnceSession.fresh .initial) claimsSmsMail
      ∧ after.blocks smsMail = [⟨1, .rerun, .body false⟩]
      ∧ alone.blocks smsMail = [⟨1, .rerun, .body true⟩]
  := by
  refine ⟨by decide, _, _, _, rfl, ?_, rfl, rfl, ?_, ?_, ?_⟩
  · rfl
  · decide
  · rfl
  · rfl

end Orcastork
