import Orcastork.Adapters.Redis.Store
import Orcastork.Library.Interleaving
import Orcastork.Library.TransitionSystem

/-!
# The effect guard

`EffectGuard.once` claims a key, runs the body, and commits or reverts the claim. The blocks
entered for one key are threads over the store; each of their store calls is one move, and
between the moves other blocks and other writers of the session make theirs.

A store call is in effect and answers, is without effect, or is in effect while its block has
been cancelled and never sees the answer. The commit and the revert are shielded: they are in
effect or not, wherever a cancellation finds the block, so that the block is over once they are
made.
-/

namespace Orcastork

/-- What a block does about a mark a predecessor left pending. -/
inductive EffectRecovery where
  | rerun
  | skip
  deriving DecidableEq, Repr

/-- The calls of the guard on a store, for one key. A call that raises returns nothing. -/
structure EffectStore (Store : Type) where
  claimEffect : Store → Epoch → Bool → Option EffectClaim × Store
  commitEffect : Store → Epoch → Store
  revertEffect : Store → Epoch → Store
  getEffectState : Store → Option String
  /-- The highest epoch accepted. -/
  fence : Store → Epoch

namespace EffectStore

/-- The in-memory store. -/
def memory (effectKey : String) : EffectStore SessionState where
  claimEffect state epoch reclaimStale :=
    match state.claimEffect effectKey epoch reclaimStale with
    | .error _ => (none, state)
    | .ok (claim, state) => (some claim, state)
  commitEffect state epoch :=
    match state.commitEffect effectKey epoch with
    | .error _ => state
    | .ok state => state
  revertEffect state epoch :=
    match state.revertEffect effectKey epoch with
    | .error _ => state
    | .ok state => state
  getEffectState state := (state.getEffectState effectKey).map EffectState.text
  fence := SessionState.maxEpoch

/-- The Redis store. -/
def redis (sessionId : SessionId) (effectKey : String) : EffectStore RedisSession where
  claimEffect session epoch reclaimStale :=
    let (claim, session) := session.claimEffect sessionId effectKey epoch reclaimStale none
    (claim.toOption, session)
  commitEffect session epoch := (session.commitEffect sessionId effectKey epoch none).2
  revertEffect session epoch := (session.revertEffect sessionId effectKey epoch none).2
  getEffectState session := session.getEffectState effectKey
  fence := RedisSession.epoch

end EffectStore

/-- Where a block stands: before a call of `_claim` or `_recover`, in its body, or before the
call that settles its claim. -/
inductive GuardPoint where
  | claiming
  | readingStale
  | reclaiming
  | body (acquired : Bool)
  | committing
  | reverting
  | left
  deriving DecidableEq, Repr

/-- A `once` block. -/
structure GuardBlock where
  epoch : Epoch
  onUnknown : EffectRecovery
  point : GuardPoint
  deriving DecidableEq, Repr

/-- How a store call of a block ends. -/
inductive CallEnding where
  | answered
  /-- The call raises, or is never made. -/
  | withoutEffect
  /-- The call is in effect, and its block is cancelled. -/
  | unanswered
  deriving DecidableEq, Repr

/-- How a body ends. -/
inductive BodyEnding where
  | clean
  | raised
  | cancelled
  deriving DecidableEq, Repr

/-- What a block does next. -/
inductive GuardMove where
  | call (ending : CallEnding)
  | finish (ending : BodyEnding)
  deriving DecidableEq, Repr

namespace GuardBlock

/-- A block that is entered. -/
def entered (epoch : Epoch) (onUnknown : EffectRecovery) : GuardBlock :=
  ⟨epoch, onUnknown, .claiming⟩

/-- Where `_claim` goes on, by the outcome of its call. -/
def afterClaim (onUnknown : EffectRecovery) : Option EffectClaim → GuardPoint
  | none => .left
  | some .acquired => .body true
  | some .alreadyCommitted => .body false
  | some .pendingSameEpoch => .body false
  | some .pendingStaleEpoch =>
    match onUnknown with
    | .skip => .body false
    | .rerun => .readingStale

/-- Where `_recover` goes on, by the outcome of the reclaim. -/
def afterReclaim : Option EffectClaim → GuardPoint
  | none => .left
  | some claim => .body (claim = .acquired)

/-- Where a body ends: a claim it holds is committed or reverted. -/
def afterBody (acquired : Bool) (ending : BodyEnding) : GuardPoint :=
  if acquired then
    match ending with
    | .clean => .committing
    | .raised => .reverting
    | .cancelled => .reverting
  else .left

variable {Store : Type}

/-- A call that may end in three ways, and where its block goes on if it is answered. -/
def callMove (state : Store) (block : GuardBlock) (ending : CallEnding) (next : Store)
    (point : GuardPoint) : Store × GuardBlock :=
  match ending with
  | .answered => (next, { block with point := point })
  | .withoutEffect => (state, { block with point := .left })
  | .unanswered => (next, { block with point := .left })

/-- The next move of a block. -/
def move (store : EffectStore Store) (state : Store) (block : GuardBlock) :
    GuardMove → Option (Store × GuardBlock)
  | .call ending =>
    match block.point with
    | .claiming =>
      let (claim, next) := store.claimEffect state block.epoch false
      some (callMove state block ending next (afterClaim block.onUnknown claim))
    | .readingStale => some (callMove state block ending state .reclaiming)
    | .reclaiming =>
      let (claim, next) := store.claimEffect state block.epoch true
      some (callMove state block ending next (afterReclaim claim))
    | .committing =>
      some (callMove state block ending (store.commitEffect state block.epoch) .left)
    | .reverting =>
      some (callMove state block ending (store.revertEffect state block.epoch) .left)
    | .body _ => none
    | .left => none
  | .finish ending =>
    match block.point with
    | .body acquired => some (state, { block with point := afterBody acquired ending })
    | _ => none

end GuardBlock

/-- What happens next: a block is entered, one makes a move, or the session is written to
elsewhere. -/
inductive GuardAction (Store : Type) where
  | enter (epoch : Epoch) (onUnknown : EffectRecovery)
  | move (block : ℕ) (move : GuardMove)
  | elsewhere (next : Store)

/-- The store with the blocks entered for the key. A write elsewhere may raise the fence and
leaves the mark of the key. -/
def guardStep {Store : Type} (store : EffectStore Store) (threads : Threads Store GuardBlock) :
    GuardAction Store → Option (Threads Store GuardBlock)
  | .enter epoch onUnknown => some (threads.start (.entered epoch onUnknown))
  | .move i move => threads.advance (GuardBlock.move store) i move
  | .elsewhere next =>
    if store.getEffectState next = store.getEffectState threads.shared
        ∧ store.fence threads.shared ≤ store.fence next then
      some { threads with shared := next }
    else none

end Orcastork
