import Mathlib.Data.List.Range
import Mathlib.Data.PNat.Defs
import Mathlib.Logic.Function.Basic
import Mathlib.Order.Bounds.Basic
import Orcastork.Adapters.Memory.Lock
import Orcastork.Library.TransitionSystem

/-!
# The calls of the session lock

A lock is used by any number of callers, each with the epoch it was once granted or with any
other. What the callers do is one sequence of calls, with time passing between them; the
replies are logged.

The lease time of a lock is positive.
-/

namespace Orcastork

/-- The calls of a session lock. -/
inductive LockCall where
  | acquire
  | renew (epoch : Epoch)
  | release (epoch : Epoch)
  | currentEpoch
  | isHeld
  | markComplete (epoch : Epoch)
  | isComplete
  | clearComplete
  deriving DecidableEq, Repr

/-- What a call returns. -/
inductive LockReply where
  | epoch (epoch : Epoch)
  | flag (flag : Bool)
  | done
  deriving DecidableEq, Repr

/-- A `SessionLock`: its state, and what a call for a session does at a time. -/
structure SessionLock (State Error : Type) where
  initial : State
  perform : State → ℕ → SessionId → LockCall → Except Error LockReply × State

namespace SessionLock

variable {State Error : Type}

/-- A call that was made, and its reply. -/
structure Logged (Error : Type) where
  sessionId : SessionId
  call : LockCall
  reply : Except Error LockReply

/-- The lock, the time, and the calls made so far. -/
structure World (State Error : Type) where
  state : State
  now : ℕ
  log : List (Logged Error)

/-- A call is made, or time passes. -/
inductive Action where
  | call (sessionId : SessionId) (call : LockCall)
  | elapse (ticks : ℕ)
  deriving DecidableEq, Repr

/-- The lock before any call. -/
def start (lock : SessionLock State Error) : World State Error := ⟨lock.initial, 0, []⟩

/-- What an action does. -/
def act (lock : SessionLock State Error) (world : World State Error) :
    Action → World State Error
  | .call sessionId call =>
    let (reply, state) := lock.perform world.state world.now sessionId call
    { world with state := state, log := world.log ++ [⟨sessionId, call, reply⟩] }
  | .elapse ticks => { world with now := world.now + ticks }

/-- Every action can be taken. -/
def step (lock : SessionLock State Error) (world : World State Error) (action : Action) :
    Option (World State Error) :=
  some (lock.act world action)

/-- The epoch a logged call was granted for a session, if it was. -/
def Logged.granted? (sessionId : SessionId) (logged : Logged Error) : Option Epoch :=
  match logged.call, logged.reply with
  | .acquire, .ok (.epoch epoch) => if logged.sessionId = sessionId then some epoch else none
  | _, _ => none

/-- The epochs granted for a session, in order. -/
def World.granted (world : World State Error) (sessionId : SessionId) : List Epoch :=
  world.log.filterMap (Logged.granted? sessionId)

end SessionLock

/-! ### The lock in memory -/

namespace LockState

/-- What a call does to the state of its session. -/
def perform (ttl : ℕ+) (state : LockState) (now : ℕ) (sessionId : SessionId) :
    LockCall → Except OrchestrationError LockReply × LockState
  | .acquire =>
    match state.acquire sessionId now ttl with
    | .error error => (.error error, state)
    | .ok (epoch, state) => (.ok (.epoch epoch), state)
  | .renew epoch =>
    match state.renew sessionId epoch now ttl with
    | .error error => (.error error, state)
    | .ok state => (.ok .done, state)
  | .release epoch => (.ok .done, state.release epoch)
  | .currentEpoch => (.ok (.epoch state.currentEpoch), state)
  | .isHeld => (.ok (.flag (state.isHeld now)), state)
  | .markComplete epoch =>
    match state.markComplete sessionId epoch with
    | .error error => (.error error, state)
    | .ok state => (.ok .done, state)
  | .isComplete => (.ok (.flag state.isComplete), state)
  | .clearComplete => (.ok .done, state.clearComplete)

-- The equations are made here once for the proofs that rewrite with them.
attribute [grind =] perform

end LockState

/-- `InMemorySessionLock`: the states of the sessions, each made when it is first needed. -/
def inMemorySessionLock (ttl : ℕ+) :
    SessionLock (SessionId → LockState) OrchestrationError where
  initial := fun _ => .initial
  perform := fun states now sessionId call =>
    let (reply, state) := (states sessionId).perform ttl now sessionId call
    (reply, Function.update states sessionId state)

end Orcastork
