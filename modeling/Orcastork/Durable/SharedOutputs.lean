import Orcastork.Adapters.Memory.DurableStore
import Orcastork.Adapters.Memory.Lock
import Orcastork.Adapters.Mongo.DurableStore
import Orcastork.Library.TransitionSystem

/-!
# Sessions that share durable outputs

Any number of sessions, each with its own lock, write to one durable store. A lock mints
the epochs of its session from `1` on; the store fences every output by the highest epoch
that wrote to it, from whatever session.

A call is therefore rejected as stale exactly when an earlier call in its scope carried a
higher epoch, and a call by the owner of its session is rejected exactly when that earlier
call was made for another session. Both adapters of the durable store are machines with
fenced calls, and all that follows is said of such a machine; of the Mongo adapter it takes
the guard of a call, which alone decides on the epoch.
-/

namespace Orcastork

namespace SharedOutputs

variable {State Call Scope : Type} [DecidableEq Scope]

/-- The locks of the sessions, the durable store they share, and the clock. -/
structure World (State : Type) where
  locks : SessionId → LockState
  durable : State
  now : ℕ

/-- What can happen: time passes, a pod acquires a session, one releases it, or a run that
was granted an epoch of a session makes a durable call with it. -/
inductive Action (Call : Type) where
  | elapse (ticks : ℕ)
  | acquire (sessionId : SessionId)
  | release (sessionId : SessionId) (epoch : Epoch)
  | call (sessionId : SessionId) (epoch : Epoch) (call : Call)

variable (store : Fence.System State Call Scope)

/-- Nothing locked, nothing written. -/
def initial : World State := ⟨fun _ => .initial, store.initial, 0⟩

/-- The world with the lock of a session replaced. -/
def World.withLock (world : World State) (sessionId : SessionId) (lock : LockState) :
    World State :=
  { world with locks := Function.update world.locks sessionId lock }

/-- One action. A call can be made only with an epoch that was minted for its session. -/
def step (ttl : ℕ) (world : World State) : Action Call → Option (World State)
  | .elapse ticks => some { world with now := world.now + ticks }
  | .acquire sessionId =>
    match (world.locks sessionId).acquire sessionId world.now ttl with
    | .ok (_, lock) => some (world.withLock sessionId lock)
    | .error _ => some world
  | .release sessionId epoch =>
    some (world.withLock sessionId ((world.locks sessionId).release epoch))
  | .call sessionId epoch call =>
    if 1 ≤ epoch ∧ epoch ≤ (world.locks sessionId).currentEpoch then
      some { world with durable := store.perform world.durable epoch call }
    else
      none

/-- The calls among some actions, with their epochs, in order. -/
def callsOf (actions : List (Action Call)) : List (Epoch × Call) :=
  actions.filterMap (fun
    | .call _ epoch call => some (epoch, call)
    | _ => none)

theorem mem_callsOf {actions : List (Action Call)} {epoch : Epoch} {call : Call} :
  (epoch, call) ∈ callsOf actions ↔ ∃ sessionId, .call sessionId epoch call ∈ actions
  := by
  rw [callsOf, List.mem_filterMap]
  constructor
  · rintro ⟨action, hmem, hsome⟩
    cases action with
    | call sessionId epoch' call' =>
        cases hsome
        use sessionId
    | elapse ticks => cases hsome
    | acquire sessionId => cases hsome
    | release sessionId epoch => cases hsome
  · rintro ⟨sessionId, hmem⟩
    use .call sessionId epoch call

/-! ### What the actions so far account for -/

/-- The durable store is as the calls made so far leave it, and no epoch of a call is above
the highest minted for its session. -/
structure Accounts (actions : List (Action Call)) (world : World State) : Prop where
  durable : world.durable = store.after (callsOf actions)
  minted : ∀ {sessionId epoch call}, .call sessionId epoch call ∈ actions →
    epoch ≤ (world.locks sessionId).currentEpoch

theorem accounts_initial :
  Accounts store [] (initial store)
  := by
  constructor
  · rfl
  · intro sessionId epoch call h
    cases h

variable {store}

/-- An action that is no call, leaves the durable store alone and lets no epoch counter
decrease is accounted for. -/
theorem Accounts.of_locks {actions : List (Action Call)} {world world' : World State}
    {action : Action Call} (h : Accounts store actions world)
    (haction : ∀ s e c, action ≠ .call s e c) (hdurable : world'.durable = world.durable)
    (hlocks : ∀ s, (world.locks s).currentEpoch ≤ (world'.locks s).currentEpoch) :
  Accounts store (actions ++ [action]) world'
  := by
  constructor
  · rw [hdurable, h.durable]
    cases action with
    | call s e c => exact absurd rfl (haction s e c)
    | elapse ticks => simp [callsOf]
    | acquire sessionId => simp [callsOf]
    | release sessionId epoch => simp [callsOf]
  · intro sessionId epoch call hmem
    rcases List.mem_append.mp hmem with hmem | hmem
    · exact (h.minted hmem).trans (hlocks sessionId)
    · exact absurd (List.mem_singleton.mp hmem).symm (haction sessionId epoch call)

theorem currentEpoch_withLock {world : World State} {sessionId : SessionId} {lock : LockState}
    (h : (world.locks sessionId).currentEpoch ≤ lock.currentEpoch) (s : SessionId) :
  (world.locks s).currentEpoch ≤ ((world.withLock sessionId lock).locks s).currentEpoch
  := by
  by_cases hs : s = sessionId
  · subst hs
    simpa [World.withLock] using h
  · simp [World.withLock, hs]

theorem accounts_step {ttl : ℕ} {actions : List (Action Call)} {world world' : World State}
    {action : Action Call} (h : Accounts store actions world)
    (hstep : step store ttl world action = some world') :
  Accounts store (actions ++ [action]) world'
  := by
  cases action with
  | elapse ticks =>
      cases hstep
      apply h.of_locks
      · intro s e c
        exact nofun
      · rfl
      · intro s
        rfl
  | acquire sessionId =>
      simp only [step] at hstep
      split at hstep
      · rename_i epoch lock hacquire
        obtain ⟨hepoch, hcurrent⟩ := LockState.currentEpoch_acquire hacquire
        cases hstep
        apply h.of_locks
        · intro s e c
          exact nofun
        · rfl
        · apply currentEpoch_withLock
          rw [hcurrent, hepoch]
          exact Nat.le_succ _
      · cases hstep
        apply h.of_locks
        · intro s e c
          exact nofun
        · rfl
        · intro s
          rfl
  | release sessionId epoch =>
      cases hstep
      apply h.of_locks
      · intro s e c
        exact nofun
      · rfl
      · apply currentEpoch_withLock
        rw [LockState.currentEpoch_release]
  | call sessionId epoch call =>
      obtain ⟨⟨-, hminted⟩, heq⟩ := Option.ite_none_right_eq_some.mp hstep
      cases heq
      constructor
      · have hcalls : callsOf (actions ++ [.call sessionId epoch call])
            = callsOf actions ++ [(epoch, call)] := by
          simp [callsOf]
        rw [hcalls, store.after_concat, h.durable]
      · intro s e c hmem
        rcases List.mem_append.mp hmem with hmem | hmem
        · exact h.minted hmem
        · cases List.mem_singleton.mp hmem
          exact hminted

/-- A call made with the highest epoch minted for a session is rejected exactly when an
earlier call, made for another session, was in its scope and had a higher epoch. -/
theorem owner_rejected_iff {ttl : ℕ} {actions : List (Action Call)} {world : World State}
    (hrun : TransitionSystem.run (step store ttl) (initial store) actions = some world)
    (sessionId : SessionId) (call : Call) :
  store.rejected world.durable (world.locks sessionId).currentEpoch call = true
    ↔ ∃ other epoch earlier, .call other epoch earlier ∈ actions ∧ other ≠ sessionId
      ∧ store.scope earlier = store.scope call
      ∧ (world.locks sessionId).currentEpoch < epoch
  := by
  have h : Accounts store actions world :=
    TransitionSystem.run_history (fun _ _ _ _ => accounts_step) (accounts_initial store) hrun
  rw [h.durable, store.rejected_iff]
  constructor
  · rintro ⟨⟨epoch, earlier⟩, hmem, hscope, hlt⟩
    obtain ⟨other, hmem⟩ := mem_callsOf.mp hmem
    refine ⟨other, epoch, earlier, hmem, ?_, hscope, hlt⟩
    rintro rfl
    exact absurd (h.minted hmem) (Nat.not_le.mpr hlt)
  · rintro ⟨other, epoch, earlier, hmem, -, hscope, hlt⟩
    exact ⟨(epoch, earlier), mem_callsOf.mpr ⟨other, hmem⟩, hscope, hlt⟩

/-! ### The two adapters -/

/-- In any run over either adapter, a durable call made with the highest epoch minted for a
session is rejected as stale exactly when an earlier call, made for another session, wrote
in its scope with a higher epoch. -/
theorem owner_call_stale_iff (ttl : ℕ) (sessionId : SessionId) :
  (∀ actions world,
      TransitionSystem.run (step DurableStore.fenced ttl) (initial DurableStore.fenced) actions
        = some world →
      ∀ call,
        DurableStore.isStale
            (world.durable.perform (world.locks sessionId).currentEpoch call).1 = true
          ↔ ∃ other epoch earlier, .call other epoch earlier ∈ actions ∧ other ≠ sessionId
            ∧ earlier.scope = call.scope ∧ (world.locks sessionId).currentEpoch < epoch)
    ∧ ∀ actions world,
      TransitionSystem.run (step MongoDurableStore.fenced ttl)
        (initial MongoDurableStore.fenced) actions = some world →
      ∀ call,
        (MongoDurableStore.operate world.durable (world.locks sessionId).currentEpoch call
            .guard).2.1.isStale = true
          ↔ ∃ other epoch earlier, .call other epoch earlier ∈ actions ∧ other ≠ sessionId
            ∧ earlier.scope = call.scope ∧ (world.locks sessionId).currentEpoch < epoch
  := by
  constructor
  · intro actions world hrun call
    apply owner_rejected_iff hrun
  · intro actions world hrun call
    apply owner_rejected_iff hrun

/-- Session `a` is taken over once and writes to a shared set with epoch `2`; then session
`b` is acquired for the first time. -/
def secondSession : List (Action DurableStore.Call) :=
  [.acquire "a", .release "a" 1, .acquire "a",
    .call "a" 2 (.addToSet "profiles" "profile" "sessions" "a"), .acquire "b"]

/-- The owner of session `b` adds to the same set, and is rejected as stale. -/
theorem owner_call_stale :
  ∃ world, TransitionSystem.run (step DurableStore.fenced 30) (initial DurableStore.fenced)
      secondSession = some world
    ∧ (world.locks "b").currentEpoch = 1
    ∧ DurableStore.isStale
        (world.durable.perform (world.locks "b").currentEpoch
          (.addToSet "profiles" "profile" "sessions" "b")).1 = true
  := ⟨_, rfl, by decide, by decide⟩

end SharedOutputs

end Orcastork
