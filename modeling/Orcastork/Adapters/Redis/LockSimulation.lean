import Mathlib.Data.String.Basic
import Std.Data.String.ToNat
import Orcastork.Adapters.Memory.LockSafety
import Orcastork.Adapters.Redis.Lock
import Orcastork.Library.Readable

/-!
# Agreement of the Redis lock with the one in memory

The keys of a session represent its state in memory: the counter and the flag as they are,
the lease by what its key holds from now on (`Represents`). Each script keeps this and
replies as the operation in memory does, so every sequence of calls has the same replies
(`session_lock_safe`).
-/

namespace Orcastork

namespace RedisSessionLock

variable {ttl : ℕ+} {state : LockState} {keys : LockKeys} {now : ℕ} {sessionId : SessionId}

/-- What the lease key holds at a time, by the state in memory. -/
def leaseText (state : LockState) (time : ℕ) : Option String :=
  if state.isLive time then state.lease.map (fun lease => toString lease.epoch) else none

/-- The keys of a session say the same as its state from now on. -/
structure Represents (now : ℕ) (sessionId : SessionId) (state : LockState) (keys : LockKeys) :
    Prop where
  lock : ∀ time, now ≤ time → keys.get? time (lockKey sessionId) = leaseText state time
  mint : keys (mintKey sessionId)
    = if state.epochCounter = 0 then none else some ⟨toString state.epochCounter, none⟩
  complete : keys (completeKey sessionId) = if state.complete then some ⟨"1", none⟩ else none

/-- A key of a session. -/
def IsKeyOf (sessionId : SessionId) (key : String) : Prop :=
  key = lockKey sessionId ∨ key = mintKey sessionId ∨ key = completeKey sessionId

/-- A call on Redis does what it does in memory: the reply is the same, the keys represent the
state after it, and only keys of the session have changed. -/
structure Agrees (now : ℕ) (sessionId : SessionId) (keys : LockKeys)
    (memory : Except OrchestrationError LockReply × LockState)
    (redis : Except RedisError LockReply × LockKeys) : Prop where
  reply : redis.1 = memory.1.mapError .orchestration
  represents : Represents now sessionId memory.2 redis.2
  frame : ∀ key, ¬IsKeyOf sessionId key → redis.2 key = keys key

/-! ### Keys -/

theorem lockKey_ne_mintKey (sessionId sessionId' : SessionId) :
  lockKey sessionId ≠ mintKey sessionId'
  := by
  intro h
  have htext := congrArg String.toList h
  simp [lockKey, mintKey] at htext

theorem lockKey_ne_completeKey (sessionId sessionId' : SessionId) :
  lockKey sessionId ≠ completeKey sessionId'
  := by
  intro h
  have htext := congrArg String.toList h
  simp [lockKey, completeKey] at htext

theorem mintKey_ne_completeKey (sessionId sessionId' : SessionId) :
  mintKey sessionId ≠ completeKey sessionId'
  := by
  intro h
  have htext := congrArg String.toList h
  simp [mintKey, completeKey] at htext

/-- Sessions have no key in common. -/
theorem not_isKeyOf_of_ne {sessionId sessionId' : SessionId} (h : sessionId' ≠ sessionId)
    {key : String} (hkey : IsKeyOf sessionId' key) :
  ¬IsKeyOf sessionId key
  := by
  have hapart : ∀ (text : String), text ++ sessionId' ≠ text ++ sessionId := by
    intro text heq
    exact h ((String.append_right_inj text).mp heq)
  rintro (rfl | rfl | rfl)
  · rcases hkey with hkey | hkey | hkey
    · exact hapart _ hkey.symm
    · exact lockKey_ne_mintKey _ _ hkey
    · exact lockKey_ne_completeKey _ _ hkey
  · rcases hkey with hkey | hkey | hkey
    · exact lockKey_ne_mintKey _ _ hkey.symm
    · exact hapart _ hkey.symm
    · exact mintKey_ne_completeKey _ _ hkey
  · rcases hkey with hkey | hkey | hkey
    · exact lockKey_ne_completeKey _ _ hkey.symm
    · exact mintKey_ne_completeKey _ _ hkey.symm
    · exact hapart _ hkey.symm

/-! ### What the keys say -/

/-- The lease key holds an epoch exactly while this epoch has a live lease. -/
theorem leaseText_eq_some_iff {time : ℕ} {epoch : Epoch} :
  leaseText state time = some (toString epoch) ↔ state.HoldsLive time epoch
  := by
  rw [leaseText]
  split
  · rename_i hlive
    obtain ⟨lease, hlease, hexpires⟩ := LockState.isLive_iff.mp hlive
    rw [hlease, Option.map_some, Option.some.injEq, Readable.natText_inj]
    constructor
    · rintro rfl
      exact ⟨lease, hlease, rfl, hexpires⟩
    · rintro ⟨lease', hlease', hepoch, -⟩
      cases hlease.symm.trans hlease'
      exact hepoch
  · rename_i hdead
    apply iff_of_false
    · intro h
      cases h
    · rintro ⟨lease, hlease, -, hexpires⟩
      exact hdead (LockState.isLive_iff.mpr ⟨lease, hlease, hexpires⟩)

theorem isSome_leaseText (state : LockState) (time : ℕ) :
  (leaseText state time).isSome = state.isLive time
  := by
  rw [leaseText]
  cases hlive : state.isLive time with
  | false => rfl
  | true =>
      obtain ⟨lease, hlease, -⟩ := LockState.isLive_iff.mp hlive
      rw [hlease]
      rfl

/-- The counter is read as a number, `0` where it is not there. -/
theorem counter_toNat? (h : Represents now sessionId state keys) (time : ℕ) :
  ((keys.get? time (mintKey sessionId)).getD "0").toNat? = some state.epochCounter
  := by
  rw [Keyspace.get?, h.mint]
  split
  · rename_i hzero
    rw [hzero]
    exact Nat.toNat?_repr 0
  · exact Nat.toNat?_repr _

/-- `INCR` mints the next epoch. -/
theorem incr_eq (h : Represents now sessionId state keys) :
  incr keys now (mintKey sessionId)
    = some (state.epochCounter + 1,
        keys.set (mintKey sessionId) (toString (state.epochCounter + 1)) none)
  := by
  rw [incr, Keyspace.get?, Keyspace.expiry?, h.mint]
  split
  · rename_i hnone
    split at hnone
    · rename_i hzero
      rw [hzero]
    · cases hnone
  · rename_i value hvalue
    split at hvalue
    · cases hvalue
    · rename_i hne
      cases hvalue
      rw [if_neg hne, Nat.toString_eq_repr, Nat.toNat?_repr]
      rfl

/-! ### Calls -/

/-- A call that changes nothing, with the same reply. -/
theorem Agrees.same (h : Represents now sessionId state keys)
    {memory : Except OrchestrationError LockReply} {redis : Except RedisError LockReply}
    (hreply : redis = memory.mapError .orchestration) :
  Agrees now sessionId keys (memory, state) (redis, keys)
  := ⟨hreply, h, fun _ _ => rfl⟩

/-- A lease that is given another time, or to another epoch, or dropped. -/
theorem Represents.withLease (h : Represents now sessionId state keys) {keys' : LockKeys}
    {lease : Option Lease}
    (hlock : ∀ time, now ≤ time →
      keys'.get? time (lockKey sessionId) = leaseText { state with lease := lease } time)
    (hframe : ∀ key, key ≠ lockKey sessionId → keys' key = keys key) :
  Represents now sessionId { state with lease := lease } keys'
  := by
  constructor
  · exact hlock
  · rw [hframe _ (lockKey_ne_mintKey _ _).symm]
    exact h.mint
  · rw [hframe _ (lockKey_ne_completeKey _ _).symm]
    exact h.complete

/-- A flag that is set or cleared. -/
theorem Represents.withFlag (h : Represents now sessionId state keys) {keys' : LockKeys}
    {flag : Bool}
    (hcomplete : keys' (completeKey sessionId) = if flag then some ⟨"1", none⟩ else none)
    (hframe : ∀ key, key ≠ completeKey sessionId → keys' key = keys key) :
  Represents now sessionId { state with complete := flag } keys'
  := by
  constructor
  · intro time hle
    apply (Keyspace.get?_congr (hframe _ (lockKey_ne_completeKey _ _)) time).trans
    exact h.lock time hle
  · rw [hframe _ (mintKey_ne_completeKey _ _)]
    exact h.mint
  · exact hcomplete

/-- A lease until a time. -/
theorem leaseText_some (state : LockState) (epoch : Epoch) (expiresAt time : ℕ) :
  leaseText { state with lease := some ⟨epoch, expiresAt⟩ } time
    = if time < expiresAt then some (toString epoch) else none
  := by
  simp only [leaseText, LockState.isLive, decide_eq_true_eq, Option.map_some]

theorem acquire_agrees (h : Represents now sessionId state keys) :
  Agrees now sessionId keys (state.perform ttl now sessionId .acquire)
    (perform ttl keys now sessionId .acquire)
  := by
  have hexists : exists? keys now (lockKey sessionId) = state.isLive now := by
    rw [exists?, h.lock now le_rfl, isSome_leaseText]
  cases hlive : state.isLive now with
  | true =>
      rw [perform, acquireScript, hexists, LockState.perform, LockState.acquire, hlive]
      exact Agrees.same h rfl
  | false =>
      have hmemory : state.perform ttl now sessionId .acquire
          = (.ok (.epoch (state.epochCounter + 1)),
              { state with
                epochCounter := state.epochCounter + 1
                lease := some ⟨state.epochCounter + 1, now + ttl⟩ }) := by
        rw [LockState.perform, LockState.acquire, hlive]
        rfl
      have hredis : perform ttl keys now sessionId .acquire
          = (.ok (.epoch (state.epochCounter + 1)),
              (keys.set (mintKey sessionId) (toString (state.epochCounter + 1)) none).set
                (lockKey sessionId) (toString (state.epochCounter + 1)) (some (now + ttl))) := by
        rw [perform, acquireScript, hexists, hlive, incr_eq h]
        rfl
      have hframe : ∀ key, key ≠ lockKey sessionId →
          ((keys.set (mintKey sessionId) (toString (state.epochCounter + 1)) none).set
              (lockKey sessionId) (toString (state.epochCounter + 1)) (some (now + ttl))) key
            = keys.set (mintKey sessionId) (toString (state.epochCounter + 1)) none key :=
        fun key hkey => Keyspace.set_of_ne _ _ _ hkey
      rw [hmemory, hredis]
      constructor
      · rfl
      · constructor
        · intro time _
          apply (Keyspace.get?_set_expiring _ _ _ _ _).trans
          exact (leaseText_some { state with epochCounter := state.epochCounter + 1 } _ _ _).symm
        · apply (hframe _ (lockKey_ne_mintKey _ _).symm).trans
          apply (Keyspace.set_self _ _ _ _).trans
          exact (if_neg (Nat.succ_ne_zero _)).symm
        · apply (hframe _ (lockKey_ne_completeKey _ _).symm).trans
          apply (Keyspace.set_of_ne _ _ _ (mintKey_ne_completeKey _ _).symm).trans
          exact h.complete
      · intro key hkey
        rw [IsKeyOf, not_or, not_or] at hkey
        obtain ⟨hlock, hmint, -⟩ := hkey
        apply (hframe _ hlock).trans
        exact Keyspace.set_of_ne _ _ _ hmint

/-- A renewal by an epoch without a live lease raises. -/
theorem renew_eq_error {epoch : Epoch} (h : ¬state.HoldsLive now epoch) :
  state.renew sessionId epoch now ttl = .error
    (.staleEpoch s!"epoch {epoch} does not hold the lock for session {sessionId}")
  := by
  rw [LockState.renew]
  split
  · rename_i lease hlease
    rw [if_pos]
    by_contra hnot
    obtain ⟨hepoch, hlive⟩ := not_or.mp hnot
    rw [not_not] at hepoch hlive
    obtain ⟨lease', hlease', hexpires⟩ := LockState.isLive_iff.mp hlive
    cases hlease.symm.trans hlease'
    exact h ⟨lease, hlease, hepoch, hexpires⟩
  · rfl

/-- A lease that is not live is not live later. -/
theorem leaseText_of_expired {lease : Lease} (hlease : state.lease = some lease)
    (h : ¬state.HoldsLive now lease.epoch) {time : ℕ} (hle : now ≤ time) :
  leaseText state time = none
  := by
  rw [leaseText, if_neg]
  intro hlive
  obtain ⟨lease', hlease', hexpires⟩ := LockState.isLive_iff.mp hlive
  cases hlease.symm.trans hlease'
  exact h ⟨lease, hlease, rfl, Nat.lt_of_le_of_lt hle hexpires⟩

theorem renew_agrees (h : Represents now sessionId state keys) (epoch : Epoch) :
  Agrees now sessionId keys (state.perform ttl now sessionId (.renew epoch))
    (perform ttl keys now sessionId (.renew epoch))
  := by
  have hheld : keys.get? now (lockKey sessionId) = some (toString epoch)
      ↔ state.HoldsLive now epoch := by
    rw [h.lock now le_rfl, leaseText_eq_some_iff]
  rw [perform, renewScript, LockState.perform]
  by_cases hlive : state.HoldsLive now epoch
  · obtain ⟨lease, hlease, hepoch, hexpires⟩ := hlive
    have hrenew : state.renew sessionId epoch now ttl
        = .ok { state with lease := some ⟨epoch, now + ttl⟩ } :=
      LockState.renew_eq_ok.mpr ⟨lease, hlease, hepoch, hexpires, rfl⟩
    have hget := hheld.mpr ⟨lease, hlease, hepoch, hexpires⟩
    rw [if_pos hget, hrenew]
    constructor
    · rfl
    · apply h.withLease
      · intro time _
        rw [leaseText_some]
        exact Keyspace.get?_expire hget _ _
      · intro key hkey
        exact Keyspace.expire_of_ne _ _ hkey
    · intro key hkey
      exact Keyspace.expire_of_ne _ _ (fun heq => hkey (Or.inl heq))
  · rw [if_neg (fun hget => hlive (hheld.mp hget)), renew_eq_error hlive]
    exact Agrees.same h rfl

theorem release_agrees (h : Represents now sessionId state keys) (epoch : Epoch) :
  Agrees now sessionId keys (state.perform ttl now sessionId (.release epoch))
    (perform ttl keys now sessionId (.release epoch))
  := by
  have hheld : keys.get? now (lockKey sessionId) = some (toString epoch)
      ↔ state.HoldsLive now epoch := by
    rw [h.lock now le_rfl, leaseText_eq_some_iff]
  rw [perform, releaseScript, LockState.perform]
  rcases LockState.release_eq state epoch with
    ⟨hrelease, lease, hlease, hepoch⟩ | ⟨hrelease, hnot⟩
  · rw [hrelease]
    split
    · constructor
      · rfl
      · apply h.withLease
        · intro time _
          exact Keyspace.get?_erase _ _ _
        · intro key hkey
          exact Keyspace.erase_of_ne _ hkey
      · intro key hkey
        exact Keyspace.erase_of_ne _ (fun heq => hkey (Or.inl heq))
    · -- The lease has expired, and the key is gone already.
      rename_i hget
      constructor
      · rfl
      · apply h.withLease
        · intro time hle
          rw [h.lock time hle]
          apply leaseText_of_expired hlease _ hle
          rw [hepoch]
          exact fun hlive => hget (hheld.mpr hlive)
        · intro key _
          rfl
      · intro key _
        rfl
  · rw [hrelease, if_neg]
    · exact Agrees.same h rfl
    · intro hget
      obtain ⟨lease, hlease, hepoch, -⟩ := hheld.mp hget
      exact hnot lease hlease hepoch

theorem markComplete_agrees (h : Represents now sessionId state keys) (epoch : Epoch) :
  Agrees now sessionId keys (state.perform ttl now sessionId (.markComplete epoch))
    (perform ttl keys now sessionId (.markComplete epoch))
  := by
  rw [perform, completeScript, counter_toNat? h, Nat.toString_eq_repr, Nat.toNat?_repr,
    LockState.perform, LockState.markComplete]
  simp only [gt_iff_lt]
  by_cases hlt : epoch < state.epochCounter
  · rw [if_pos hlt, if_pos hlt]
    exact Agrees.same h rfl
  · rw [if_neg hlt, if_neg hlt]
    constructor
    · rfl
    · apply h.withFlag
      · exact Keyspace.set_self _ _ _ _
      · intro key hkey
        exact Keyspace.set_of_ne _ _ _ hkey
    · intro key hkey
      exact Keyspace.set_of_ne _ _ _ (fun heq => hkey (Or.inr (Or.inr heq)))

theorem clearComplete_agrees (h : Represents now sessionId state keys) :
  Agrees now sessionId keys (state.perform ttl now sessionId .clearComplete)
    (perform ttl keys now sessionId .clearComplete)
  := by
  rw [perform, LockState.perform]
  constructor
  · rfl
  · apply h.withFlag
    · exact Keyspace.erase_self _ _
    · intro key hkey
      exact Keyspace.erase_of_ne _ hkey
  · intro key hkey
    exact Keyspace.erase_of_ne _ (fun heq => hkey (Or.inr (Or.inr heq)))

/-- Every call agrees. -/
theorem perform_agrees (h : Represents now sessionId state keys) (call : LockCall) :
  Agrees now sessionId keys (state.perform ttl now sessionId call)
    (perform ttl keys now sessionId call)
  := by
  cases call with
  | acquire => exact acquire_agrees h
  | renew epoch => exact renew_agrees h epoch
  | release epoch => exact release_agrees h epoch
  | markComplete epoch => exact markComplete_agrees h epoch
  | clearComplete => exact clearComplete_agrees h
  | currentEpoch =>
      rw [perform, counter_toNat? h]
      exact Agrees.same h rfl
  | isHeld =>
      rw [perform, exists?, h.lock now le_rfl, isSome_leaseText]
      exact Agrees.same h rfl
  | isComplete =>
      rw [perform, exists?, Keyspace.get?, h.complete]
      apply Agrees.same h
      cases hcomplete : state.complete with
      | true =>
          rw [LockState.isComplete, hcomplete]
          rfl
      | false =>
          rw [LockState.isComplete, hcomplete]
          rfl

/-! ### Runs -/

/-- The keys of a session represent its state later on as well. -/
theorem Represents.later (h : Represents now sessionId state keys) {later : ℕ}
    (hle : now ≤ later) :
  Represents later sessionId state keys
  := ⟨fun time htime => h.lock time (hle.trans htime), h.mint, h.complete⟩

/-- What represents a session is not touched by the calls for another. -/
theorem Represents.frame (h : Represents now sessionId state keys) {keys' : LockKeys}
    (hframe : ∀ key, IsKeyOf sessionId key → keys' key = keys key) :
  Represents now sessionId state keys'
  := by
  constructor
  · intro time hle
    rw [← h.lock time hle]
    exact Keyspace.get?_congr (hframe _ (Or.inl rfl)) time
  · rw [hframe _ (Or.inr (Or.inl rfl))]
    exact h.mint
  · rw [hframe _ (Or.inr (Or.inr rfl))]
    exact h.complete

end RedisSessionLock

namespace SessionLock

open RedisSessionLock

variable {ttl : ℕ+}

/-- The Redis lock with the calls made so far. -/
abbrev RedisWorld := World LockKeys RedisError

/-- Runs of calls of the Redis lock. -/
def RedisRun (ttl : ℕ+) (actions : List Action) (world : RedisWorld) : Prop :=
  TransitionSystem.run (redisSessionLock ttl).step (redisSessionLock ttl).start actions
    = some world

/-- What the Redis lock logs where the lock in memory logs a call. -/
def Logged.onRedis (logged : Logged OrchestrationError) : Logged RedisError :=
  ⟨logged.sessionId, logged.call, logged.reply.mapError .orchestration⟩

/-- The keys represent every session, at the same time and with the same replies so far. -/
structure InStep (memory : MemoryWorld) (redis : RedisWorld) : Prop where
  now : redis.now = memory.now
  represents : ∀ sessionId,
    RedisSessionLock.Represents memory.now sessionId (memory.state sessionId) redis.state
  log : redis.log = memory.log.map Logged.onRedis

theorem inStep_start :
  InStep (inMemorySessionLock ttl).start (redisSessionLock ttl).start
  := by
  constructor
  · rfl
  · intro sessionId
    constructor
    · intro time _
      rfl
    · rfl
    · rfl
  · rfl

theorem InStep.act {memory : MemoryWorld} {redis : RedisWorld} (h : InStep memory redis)
    (action : Action) :
  InStep ((inMemorySessionLock ttl).act memory action) ((redisSessionLock ttl).act redis action)
  := by
  cases action with
  | elapse ticks =>
      constructor
      · exact congrArg (· + ticks) h.now
      · intro sessionId
        exact (h.represents sessionId).later (Nat.le_add_right _ _)
      · exact h.log
  | call sessionId call =>
      have hagrees := @perform_agrees ttl _ _ _ _ (h.represents sessionId) call
      have hredis : (redisSessionLock ttl).act redis (.call sessionId call)
          = { redis with
              state := (RedisSessionLock.perform ttl redis.state memory.now sessionId call).2
              log := redis.log ++
                [⟨sessionId, call,
                  (RedisSessionLock.perform ttl redis.state memory.now sessionId call).1⟩] } := by
        rw [← h.now]
        rfl
      rw [hredis]
      constructor
      · exact h.now
      · intro sessionId'
        rw [(act_call memory sessionId call).1]
        by_cases hsession : sessionId' = sessionId
        · rw [hsession, Function.update_self]
          exact hagrees.represents
        · rw [Function.update_of_ne hsession]
          apply (h.represents sessionId').frame
          intro key hkey
          exact hagrees.frame key (not_isKeyOf_of_ne hsession hkey)
      · rw [(act_call memory sessionId call).2, List.map_append, ← h.log]
        simp only
        rw [hagrees.reply]
        rfl

/-- Every list of actions is a run of both locks, which stay in step. -/
theorem inStep_run (ttl : ℕ+) (actions : List Action) :
  ∃ memory redis, MemoryRun ttl actions memory ∧ RedisRun ttl actions redis
    ∧ InStep memory redis
  := by
  have hrun : ∀ (memory : MemoryWorld) (redis : RedisWorld), InStep memory redis →
      ∃ memory' redis',
        TransitionSystem.run (inMemorySessionLock ttl).step memory actions = some memory'
          ∧ TransitionSystem.run (redisSessionLock ttl).step redis actions = some redis'
          ∧ InStep memory' redis' := by
    induction actions with
    | nil =>
        intro memory redis h
        exact ⟨memory, redis, rfl, rfl, h⟩
    | cons action actions ih =>
        intro memory redis h
        exact ih _ _ (h.act action)
  exact hrun _ _ inStep_start

/-- The session lock is safe, and the Redis lock replies to every sequence of calls as the lock
in memory does. -/
theorem session_lock_safe (ttl : ℕ+) :
  LockSafe ttl
    ∧ ∀ actions, ∃ memory redis, MemoryRun ttl actions memory ∧ RedisRun ttl actions redis
      ∧ redis.log = memory.log.map Logged.onRedis
  := by
  constructor
  · exact lockSafe ttl
  · intro actions
    obtain ⟨memory, redis, hmemory, hredis, hinStep⟩ := inStep_run ttl actions
    use memory, redis, hmemory, hredis
    exact hinStep.log

end SessionLock

end Orcastork
