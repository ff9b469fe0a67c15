import Orcastork.Adapters.Memory.LockCalls

/-!
# Safety of the session lock

The lease of a session, the counter of its epochs and its completion flag change together
with the calls, and the lease with time. What a call can do to them is one lemma
(`perform_cases`); the invariant is that the epochs granted are those up to the counter, and
that a lease is the counter's (`Invariant`).
-/

namespace Orcastork

namespace LockState

variable {ttl : ℕ+} {state : LockState} {now : ℕ} {sessionId : SessionId}

/-- An epoch that has a live lease. -/
def HoldsLive (state : LockState) (now : ℕ) (epoch : Epoch) : Prop :=
  ∃ lease, state.lease = some lease ∧ lease.epoch = epoch ∧ now < lease.expiresAt

/-- What a call does to a session. -/
inductive Performed (ttl : ℕ+) (state : LockState) (now : ℕ) (sessionId : SessionId) :
    LockCall → Except OrchestrationError LockReply × LockState → Prop
  /-- The lock is granted. -/
  | granted (hfree : state.isLive now = false) :
      Performed ttl state now sessionId .acquire
        (.ok (.epoch (state.epochCounter + 1)),
          { state with
            epochCounter := state.epochCounter + 1
            lease := some ⟨state.epochCounter + 1, now + ttl⟩ })
  /-- The lease is extended by the epoch that has it. -/
  | renewed {epoch : Epoch} (hlive : state.HoldsLive now epoch) :
      Performed ttl state now sessionId (.renew epoch)
        (.ok .done, { state with lease := some ⟨epoch, now + ttl⟩ })
  /-- The lease is dropped by the epoch it was granted to. -/
  | released {epoch : Epoch} {lease : Lease} (hlease : state.lease = some lease)
      (hepoch : lease.epoch = epoch) :
      Performed ttl state now sessionId (.release epoch)
        (.ok .done, { state with lease := none })
  /-- The flag is set by an epoch that is not below the counter. -/
  | completed {epoch : Epoch} (hle : state.epochCounter ≤ epoch) :
      Performed ttl state now sessionId (.markComplete epoch)
        (.ok .done, { state with complete := true })
  /-- The flag is cleared. -/
  | cleared :
      Performed ttl state now sessionId .clearComplete
        (.ok .done, { state with complete := false })
  /-- Nothing changes; a call that should have changed something has raised, or it was a
  release of what is not held. -/
  | same {call : LockCall} {reply : Except OrchestrationError LockReply}
      (hacquire : call = .acquire → ∃ error, reply = .error error)
      (hcomplete : ∀ epoch, call = .markComplete epoch →
        epoch < state.epochCounter ∧ reply = .error
          (.staleEpoch s!"epoch {epoch} is stale for session {sessionId}")) :
      Performed ttl state now sessionId call (reply, state)

/-- Every call does one of these. -/
theorem perform_cases (ttl : ℕ+) (state : LockState) (now : ℕ) (sessionId : SessionId)
    (call : LockCall) :
  Performed ttl state now sessionId call (state.perform ttl now sessionId call)
  := by
  cases call with
  | acquire =>
      rw [perform, acquire]
      cases hlive : state.isLive now with
      | true =>
          apply Performed.same
          · intro _
            exact ⟨_, rfl⟩
          · intro epoch h
            cases h
      | false => exact Performed.granted hlive
  | renew epoch =>
      rw [perform]
      cases hrenew : state.renew sessionId epoch now ttl with
      | error error =>
          apply Performed.same
          · intro h
            cases h
          · intro epoch h
            cases h
      | ok state' =>
          obtain ⟨lease, hlease, hepoch, hlive, rfl⟩ := renew_eq_ok.mp hrenew
          exact Performed.renewed ⟨lease, hlease, hepoch, hlive⟩
  | release epoch =>
      rw [perform]
      rcases release_eq state epoch with ⟨hrelease, lease, hlease, hepoch⟩ | ⟨hrelease, -⟩
      · rw [hrelease]
        exact Performed.released hlease hepoch
      · rw [hrelease]
        apply Performed.same
        · intro h
          cases h
        · intro epoch h
          cases h
  | markComplete epoch =>
      rw [perform, markComplete]
      split
      · rename_i herror
        split at herror
        · rename_i hlt
          cases herror
          apply Performed.same
          · intro h
            cases h
          · intro epoch' h
            cases h
            exact ⟨hlt, rfl⟩
        · cases herror
      · rename_i hok
        split at hok
        · cases hok
        · rename_i hle
          cases hok
          exact Performed.completed (Nat.not_lt.mp hle)
  | clearComplete => exact Performed.cleared
  | currentEpoch | isHeld | isComplete =>
      apply Performed.same
      · intro h
        cases h
      · intro epoch h
        cases h

end LockState

namespace SessionLock

variable {ttl : ℕ+}

/-- The lock in memory with the calls made so far. -/
abbrev MemoryWorld := World (SessionId → LockState) OrchestrationError

/-- Runs of calls of the lock in memory. -/
def MemoryRun (ttl : ℕ+) (actions : List Action) (world : MemoryWorld) : Prop :=
  TransitionSystem.run (inMemorySessionLock ttl).step (inMemorySessionLock ttl).start actions
    = some world

/-- The invariant: the epochs granted to a session are those up to its counter, and its lease
is the counter's. -/
structure Invariant (world : MemoryWorld) : Prop where
  granted : ∀ sessionId,
    world.granted sessionId = List.range' 1 (world.state sessionId).epochCounter
  lease : ∀ {sessionId lease}, (world.state sessionId).lease = some lease →
    lease.epoch = (world.state sessionId).epochCounter ∧ lease.epoch ≠ 0

/-- A call leaves the sessions it is not for, and does to its own what it does. -/
theorem act_call (world : MemoryWorld) (sessionId : SessionId) (call : LockCall) :
  ((inMemorySessionLock ttl).act world (.call sessionId call)).state
      = Function.update world.state sessionId
          ((world.state sessionId).perform ttl world.now sessionId call).2
    ∧ ((inMemorySessionLock ttl).act world (.call sessionId call)).log = world.log
        ++ [⟨sessionId, call, ((world.state sessionId).perform ttl world.now sessionId call).1⟩]
  := ⟨rfl, rfl⟩

/-- What a call for a session is granted is the last of the session's epochs. -/
theorem granted_call (world : MemoryWorld) (sessionId sessionId' : SessionId)
    (call : LockCall) :
  ((inMemorySessionLock ttl).act world (.call sessionId call)).granted sessionId'
    = world.granted sessionId'
      ++ (Logged.granted? sessionId' ⟨sessionId, call,
          ((world.state sessionId).perform ttl world.now sessionId call).1⟩).toList
  := by
  rw [World.granted, (act_call world sessionId call).2, List.filterMap_append]
  apply congrArg (world.granted sessionId' ++ ·)
  rw [List.filterMap_cons]
  cases Logged.granted? sessionId' _ with
  | none => rfl
  | some epoch => rfl

theorem granted?_of_ne {sessionId sessionId' : SessionId} {call : LockCall}
    {reply : Except OrchestrationError LockReply} (h : sessionId ≠ sessionId') :
  Logged.granted? sessionId' ⟨sessionId, call, reply⟩ = none
  := by
  rw [Logged.granted?]
  split
  · rw [if_neg h]
  · rfl

/-- A grant is one of its session. -/
theorem granted?_acquire (sessionId : SessionId) (epoch : Epoch) :
  Logged.granted? sessionId
      (⟨sessionId, .acquire, .ok (.epoch epoch)⟩ : Logged OrchestrationError)
    = some epoch
  := if_pos rfl

/-- Nothing else is granted. -/
theorem granted?_eq_none {sessionId : SessionId} {call : LockCall}
    {reply : Except OrchestrationError LockReply}
    (h : call = .acquire → ∃ error, reply = .error error) :
  Logged.granted? sessionId ⟨sessionId, call, reply⟩ = none
  := by
  rw [Logged.granted?]
  split
  · rename_i hcall hreply
    obtain ⟨error, herror⟩ := h hcall
    cases herror.symm.trans hreply
  · rfl

theorem invariant_start :
  Invariant (inMemorySessionLock ttl).start
  := by
  constructor
  · intro sessionId
    rfl
  · intro sessionId lease h
    cases h

/-- What a call does to its session keeps the session's part of the invariant. -/
theorem performed_invariant {state : LockState} {now : ℕ} {sessionId : SessionId}
    {call : LockCall} {result : Except OrchestrationError LockReply × LockState}
    (h : LockState.Performed ttl state now sessionId call result) {granted : List Epoch}
    (hgranted : granted = List.range' 1 state.epochCounter)
    (hlease : ∀ {lease}, state.lease = some lease →
      lease.epoch = state.epochCounter ∧ lease.epoch ≠ 0) :
  granted ++ (Logged.granted? sessionId ⟨sessionId, call, result.1⟩).toList
      = List.range' 1 result.2.epochCounter
    ∧ ∀ {lease}, result.2.lease = some lease →
      lease.epoch = result.2.epochCounter ∧ lease.epoch ≠ 0
  := by
  cases h with
  | granted hfree =>
      constructor
      · rw [granted?_acquire, hgranted, List.range'_1_concat, Nat.add_comm]
        rfl
      · intro lease h
        cases h
        exact ⟨rfl, Nat.succ_ne_zero _⟩
  | @renewed epoch hlive =>
      obtain ⟨lease, hheld, rfl, -⟩ := hlive
      have hcounter := hlease hheld
      constructor
      · rw [granted?_eq_none (by rintro ⟨⟩), hgranted]
        exact List.append_nil _
      · intro lease' h
        cases h
        exact hcounter
  | released hheld hepoch =>
      constructor
      · rw [granted?_eq_none (by rintro ⟨⟩), hgranted]
        exact List.append_nil _
      · intro lease' h
        cases h
  | completed hle =>
      constructor
      · rw [granted?_eq_none (by rintro ⟨⟩), hgranted]
        exact List.append_nil _
      · exact hlease
  | cleared =>
      constructor
      · rw [granted?_eq_none (by rintro ⟨⟩), hgranted]
        exact List.append_nil _
      · exact hlease
  | same hacquire _ =>
      constructor
      · rw [granted?_eq_none hacquire, hgranted]
        exact List.append_nil _
      · exact hlease

theorem invariant_act {world : MemoryWorld} (h : Invariant world) (action : Action) :
  Invariant ((inMemorySessionLock ttl).act world action)
  := by
  cases action with
  | elapse ticks =>
      constructor
      · exact h.granted
      · exact h.lease
  | call sessionId call =>
      obtain ⟨hgranted, hlease⟩ := performed_invariant
        (LockState.perform_cases ttl (world.state sessionId) world.now sessionId call)
        (h.granted sessionId) h.lease
      constructor
      · intro sessionId'
        rw [granted_call, (act_call world sessionId call).1]
        by_cases hsession : sessionId = sessionId'
        · rw [← hsession, Function.update_self, hgranted]
        · rw [granted?_of_ne hsession, Function.update_of_ne (Ne.symm hsession), h.granted]
          exact List.append_nil _
      · intro sessionId' lease hheld
        rw [(act_call world sessionId call).1] at hheld ⊢
        by_cases hsession : sessionId = sessionId'
        · rw [← hsession, Function.update_self] at hheld ⊢
          exact hlease hheld
        · rw [Function.update_of_ne (Ne.symm hsession)] at hheld ⊢
          exact h.lease hheld

theorem invariant_run {actions : List Action} {world : MemoryWorld}
    (hrun : MemoryRun ttl actions world) :
  Invariant world
  := TransitionSystem.run_invariant
    (fun _ action _ h hstep => Option.some.inj hstep ▸ invariant_act h action)
    invariant_start hrun

/-! ### Safety -/

/-- What holds of the lock in every run, whoever calls it and with whatever epochs. -/
structure LockSafe (ttl : ℕ+) : Prop where
  /-- Granted epochs increase. -/
  increasing : ∀ {actions : List Action} {world : MemoryWorld}, MemoryRun ttl actions world →
    ∀ sessionId, (world.granted sessionId).Pairwise (· < ·)
  /-- An epoch with a live lease is the highest one granted, and the counter. -/
  live : ∀ {actions : List Action} {world : MemoryWorld}, MemoryRun ttl actions world →
    ∀ {sessionId epoch}, (world.state sessionId).HoldsLive world.now epoch →
      IsGreatest {granted | granted ∈ world.granted sessionId} epoch
        ∧ (world.state sessionId).epochCounter = epoch
  /-- A renewal or release by another epoch leaves a live lease as it is. -/
  apart : ∀ {actions : List Action} {world : MemoryWorld}, MemoryRun ttl actions world →
    ∀ {sessionId epoch epoch' call}, (world.state sessionId).HoldsLive world.now epoch →
      epoch' ≠ epoch → call = .renew epoch' ∨ call = .release epoch' →
        (((inMemorySessionLock ttl).act world (.call sessionId call)).state sessionId).lease
          = (world.state sessionId).lease
  /-- Where the counter changes, its next epoch is granted. -/
  counter : ∀ {actions : List Action} {world : MemoryWorld}, MemoryRun ttl actions world →
    ∀ {sessionId action}, let world' := (inMemorySessionLock ttl).act world action
      (world'.state sessionId).epochCounter ≠ (world.state sessionId).epochCounter →
        action = .call sessionId .acquire
          ∧ (world'.state sessionId).epochCounter = (world.state sessionId).epochCounter + 1
          ∧ world'.granted sessionId
              = world.granted sessionId ++ [(world'.state sessionId).epochCounter]
          ∧ (world'.state sessionId).HoldsLive world'.now (world'.state sessionId).epochCounter
  /-- An epoch below the counter cannot set the flag. -/
  stale : ∀ {actions : List Action} {world : MemoryWorld}, MemoryRun ttl actions world →
    ∀ {sessionId epoch}, epoch < (world.state sessionId).epochCounter →
      let world' := (inMemorySessionLock ttl).act world (.call sessionId (.markComplete epoch))
      world'.log = world.log ++ [⟨sessionId, .markComplete epoch,
          .error (.staleEpoch s!"epoch {epoch} is stale for session {sessionId}")⟩]
        ∧ (world'.state sessionId).complete = (world.state sessionId).complete

/-- A stranger's renewal or release leaves the lease. -/
theorem lease_of_performed {state : LockState} {now : ℕ} {sessionId : SessionId}
    {call : LockCall} {result : Except OrchestrationError LockReply × LockState}
    (h : LockState.Performed ttl state now sessionId call result) {epoch epoch' : Epoch}
    (hlive : state.HoldsLive now epoch) (hne : epoch' ≠ epoch)
    (hcall : call = .renew epoch' ∨ call = .release epoch') :
  result.2.lease = state.lease
  := by
  obtain ⟨lease, hlease, hepoch, -⟩ := hlive
  cases h with
  | granted _ => rcases hcall with hcall | hcall <;> cases hcall
  | renewed hheld =>
      obtain ⟨lease', hlease', hepoch', -⟩ := hheld
      cases hlease.symm.trans hlease'
      rcases hcall with hcall | hcall
      · cases hcall
        exact absurd (hepoch'.symm.trans hepoch) hne
      · cases hcall
  | released hlease' hepoch' =>
      cases hlease.symm.trans hlease'
      rcases hcall with hcall | hcall
      · cases hcall
      · cases hcall
        exact absurd (hepoch'.symm.trans hepoch) hne
  | completed _ => rfl
  | cleared => rfl
  | same _ _ => rfl

/-- Only a grant changes the counter. -/
theorem counter_of_performed {state : LockState} {now : ℕ} {sessionId : SessionId}
    {call : LockCall} {result : Except OrchestrationError LockReply × LockState}
    (h : LockState.Performed ttl state now sessionId call result)
    (hcounter : result.2.epochCounter ≠ state.epochCounter) :
  call = .acquire ∧ result.2.epochCounter = state.epochCounter + 1
    ∧ Logged.granted? sessionId ⟨sessionId, call, result.1⟩ = some result.2.epochCounter
    ∧ result.2.HoldsLive now result.2.epochCounter
  := by
  cases h with
  | granted hfree =>
      refine ⟨rfl, rfl, granted?_acquire _ _, _, rfl, rfl, ?_⟩
      exact Nat.lt_add_of_pos_right ttl.pos
  | _ => exact absurd rfl hcounter

/-- The lock in memory is safe. -/
theorem lockSafe (ttl : ℕ+) :
  LockSafe ttl
  := by
  constructor
  · intro actions world hrun sessionId
    rw [(invariant_run hrun).granted]
    exact List.pairwise_lt_range'
  · rintro actions world hrun sessionId epoch ⟨lease, hlease, rfl, -⟩
    have hinvariant := invariant_run hrun
    obtain ⟨hepoch, hpos⟩ := hinvariant.lease hlease
    refine ⟨⟨?_, ?_⟩, hepoch.symm⟩
    · change lease.epoch ∈ world.granted sessionId
      rw [hinvariant.granted, List.mem_range'_1, hepoch, Nat.add_comm]
      exact ⟨hepoch ▸ Nat.one_le_iff_ne_zero.mpr hpos, Nat.lt_succ_self _⟩
    · intro granted hgranted
      change granted ∈ world.granted sessionId at hgranted
      rw [hinvariant.granted, List.mem_range'_1, Nat.add_comm] at hgranted
      rw [hepoch]
      exact Nat.le_of_lt_succ hgranted.2
  · intro actions world hrun sessionId epoch epoch' call hlive hne hcall
    rw [(act_call world sessionId call).1, Function.update_self]
    exact lease_of_performed (LockState.perform_cases ttl _ _ _ _) hlive hne hcall
  · intro actions world hrun sessionId action world' hcounter
    cases action with
    | elapse ticks => exact absurd rfl hcounter
    | call sessionId' call =>
        have hsession : sessionId' = sessionId := by
          by_contra hsession
          apply hcounter
          rw [(act_call world sessionId' call).1, Function.update_of_ne (Ne.symm hsession)]
        subst hsession
        have hgranted := @granted_call ttl world sessionId' sessionId' call
        have hstate := congrFun (@act_call ttl world sessionId' call).1 sessionId'
        rw [Function.update_self] at hstate
        obtain ⟨hcall, hcounter', hepoch, hlive⟩ := counter_of_performed
          (LockState.perform_cases ttl (world.state sessionId') world.now sessionId' call)
          (by rw [← hstate]; exact hcounter)
        rw [hepoch] at hgranted
        rw [hstate]
        exact ⟨congrArg _ hcall, hcounter', hgranted, hlive⟩
  · intro actions world hrun sessionId epoch hlt world'
    have hperform : (world.state sessionId).perform ttl world.now sessionId (.markComplete epoch)
        = (.error (.staleEpoch s!"epoch {epoch} is stale for session {sessionId}"),
          world.state sessionId) := by
      rw [LockState.perform, LockState.markComplete, if_pos hlt]
    obtain ⟨hstate, hlog⟩ := @act_call ttl world sessionId (.markComplete epoch)
    rw [hperform] at hstate hlog
    constructor
    · exact hlog
    · rw [hstate, Function.update_self]

end SessionLock

end Orcastork
