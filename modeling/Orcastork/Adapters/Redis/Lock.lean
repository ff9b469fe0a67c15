import Orcastork.Adapters.Memory.LockCalls
import Orcastork.Adapters.Redis.Store
import Orcastork.Library.Keyspace

/-!
# The Redis session lock

`RedisSessionLock` keeps three keys for a session: the lease, whose value is the epoch it was
granted to and which Redis itself lets expire, the counter of epochs, and the completion
flag. Values are strings. What compares and then writes is one script, and atomic.

Numbers are exact in scripts. The counter and the flag do not expire.
-/

namespace Orcastork

/-- The keys of the lock. -/
abbrev LockKeys := Keyspace String String

namespace RedisSessionLock

/-- `_lock_key`. -/
def lockKey (sessionId : SessionId) : String := "lock:" ++ sessionId

/-- `_mint_key`. -/
def mintKey (sessionId : SessionId) : String := "mint:" ++ sessionId

/-- `_complete_key`. -/
def completeKey (sessionId : SessionId) : String := "complete:" ++ sessionId

/-! ### Commands -/

/-- `EXISTS`. -/
def exists? (keys : LockKeys) (now : ℕ) (key : String) : Bool := (keys.get? now key).isSome

/-- `INCR`: a key that is not there counts from `0`, one that holds no number fails. The key
keeps its expiry. -/
def incr (keys : LockKeys) (now : ℕ) (key : String) : Option (ℕ × LockKeys) :=
  match keys.get? now key with
  | none => some (1, keys.set key (toString 1) none)
  | some value =>
    value.toNat?.map (fun n => (n + 1, keys.set key (toString (n + 1)) (keys.expiry? key)))

/-! ### Scripts

A script that fails is left where it fails. -/

/-- `_ACQUIRE`: the epoch minted, or `0`. -/
def acquireScript (lock mint : String) (ttl : ℕ+) (now : ℕ) (keys : LockKeys) :
    Option (ℕ × LockKeys) :=
  if exists? keys now lock then
    some (0, keys)
  else
    (incr keys now mint).map (fun minted =>
      (minted.1, minted.2.set lock (toString minted.1) (some (now + ttl))))

/-- `_RELEASE`. -/
def releaseScript (lock epoch : String) (now : ℕ) (keys : LockKeys) : ℕ × LockKeys :=
  if keys.get? now lock = some epoch then (1, keys.erase lock) else (0, keys)

/-- `_RENEW`. -/
def renewScript (lock epoch : String) (ttl : ℕ+) (now : ℕ) (keys : LockKeys) : ℕ × LockKeys :=
  if keys.get? now lock = some epoch then (1, keys.expire lock (now + ttl)) else (0, keys)

/-- `_COMPLETE`. It fails on what is not a number. -/
def completeScript (mint complete epoch : String) (now : ℕ) (keys : LockKeys) :
    Option (ℕ × LockKeys) :=
  match ((keys.get? now mint).getD "0").toNat?, epoch.toNat? with
  | some minted, some given =>
    if minted > given then some (0, keys) else some (1, keys.set complete "1" none)
  | _, _ => none

/-! ### Operations -/

/-- What a call does at a time. -/
def perform (ttl : ℕ+) (keys : LockKeys) (now : ℕ) (sessionId : SessionId) :
    LockCall → Except RedisError LockReply × LockKeys
  | .acquire =>
    match acquireScript (lockKey sessionId) (mintKey sessionId) ttl now keys with
    | none => (.error (.commandFailed .script), keys)
    | some (epoch, keys) =>
      if epoch = 0 then
        (.error (.orchestration (.lockHeld s!"session {sessionId} is already locked")), keys)
      else
        (.ok (.epoch epoch), keys)
  | .renew epoch =>
    let (extended, keys) := renewScript (lockKey sessionId) (toString epoch) ttl now keys
    if extended = 0 then
      (.error (.orchestration
        (.staleEpoch s!"epoch {epoch} does not hold the lock for session {sessionId}")), keys)
    else
      (.ok .done, keys)
  | .release epoch =>
    (.ok .done, (releaseScript (lockKey sessionId) (toString epoch) now keys).2)
  | .currentEpoch =>
    match ((keys.get? now (mintKey sessionId)).getD "0").toNat? with
    | none => (.error (.commandFailed .script), keys)
    | some epoch => (.ok (.epoch epoch), keys)
  | .isHeld => (.ok (.flag (exists? keys now (lockKey sessionId))), keys)
  | .markComplete epoch =>
    match completeScript (mintKey sessionId) (completeKey sessionId) (toString epoch) now keys with
    | none => (.error (.commandFailed .script), keys)
    | some (marked, keys) =>
      if marked = 0 then
        (.error (.orchestration (.staleEpoch s!"epoch {epoch} is stale for session {sessionId}")),
          keys)
      else
        (.ok .done, keys)
  | .isComplete => (.ok (.flag (exists? keys now (completeKey sessionId))), keys)
  | .clearComplete => (.ok .done, keys.erase (completeKey sessionId))

-- The equations are made here once for the proofs that rewrite with them.
attribute [grind =] perform

end RedisSessionLock

/-- `RedisSessionLock`. -/
def redisSessionLock (ttl : ℕ+) : SessionLock LockKeys RedisError where
  initial := .empty
  perform := RedisSessionLock.perform ttl

end Orcastork
