import Mathlib.Logic.Function.Basic
import Orcastork.Adapters.Memory.InboxCalls
import Orcastork.Library.Wakeups

/-!
# Wakeups of the in-memory inbox

`wait_for_entry` of `InMemoryInbox` returns where entries are pending, and blocks on the arrival
event of the session where there are none. There may be several waiters on one event; each clears it
before it blocks. An event that is set wakes those that block on it then, also where it is cleared
again before they go on.
-/

namespace Orcastork

open TransitionSystem

/-- Whether a call appends an entry. -/
def InboxCall.appends : InboxCall → Bool
  | .append _ | .appendSerialized _ => true
  | .consume _ | .reclaim | .ack _ _ | .quarantine _ _ _ | .quarantined | .pendingCount => false

namespace InboxState

/-- What a call that appends nothing leaves of an empty inbox. -/
theorem perform_empty {codec : InboxCodec} {state : InboxState} {call : InboxCall}
    (hcall : call.appends = false) (hempty : state.messages = []) :
  (state.perform codec call).2.messages = []
  := by
  cases call with
  | append dataPoint => cases hcall
  | appendSerialized payload => cases hcall
  | consume maxEntries => apply (later_consume codec.decode _).2 hempty
  | reclaim => apply (later_reclaim codec.decode).2 hempty
  | ack entryId epoch =>
      rw [perform]
      split
      · apply hempty
      · rename_i hack
        apply (later_ack hack).2 hempty
  | quarantine entryId reason epoch =>
      rw [perform]
      split
      · apply hempty
      · rename_i hquarantine
        apply (later_quarantine hquarantine).2 hempty
  | quarantined => apply hempty
  | pendingCount => apply hempty

end InboxState

/-- A task in `wait_for_entry` of the inbox in memory. -/
inductive MemoryWaiter where
  | idle
  /-- Waiting for the event to be set. -/
  | blocked
  /-- The event was set; the task goes on when it is its turn. -/
  | woken
  | returned
  deriving DecidableEq, Repr

/-- The inbox of a session with its arrival event and the tasks that wait. -/
structure MemoryWaiting where
  inbox : InboxState
  /-- Whether the arrival event is set. -/
  arrival : Bool
  waiters : ℕ → MemoryWaiter

/-- What happens next. -/
inductive MemoryWaitAction where
  | call (call : InboxCall)
  /-- A task calls `wait_for_entry`: there is no await up to where it blocks. -/
  | wait (waiter : ℕ)
  | resume (waiter : ℕ)
  | cancel (waiter : ℕ)

namespace MemoryWaiting

/-- A session nobody waits for. -/
def initial : MemoryWaiting := ⟨.initial, false, fun _ => .idle⟩

/-- A waiter when the event is set. -/
def wake : MemoryWaiter → MemoryWaiter
  | .blocked => .woken
  | .idle => .idle
  | .woken => .woken
  | .returned => .returned

/-- The session after an action, if it can be taken. -/
def step (codec : InboxCodec) (state : MemoryWaiting) : MemoryWaitAction → Option MemoryWaiting
  | .call call =>
    let inbox := (state.inbox.perform codec call).2
    if call.appends then some ⟨inbox, true, wake ∘ state.waiters⟩
    else some { state with inbox := inbox }
  | .wait waiter =>
    match state.waiters waiter with
    | .blocked | .woken => none
    | .idle | .returned =>
      if state.inbox.messages = [] then
        some { state with
          arrival := false
          waiters := Function.update state.waiters waiter .blocked }
      else some { state with waiters := Function.update state.waiters waiter .returned }
  | .resume waiter =>
    match state.waiters waiter with
    | .woken => some { state with waiters := Function.update state.waiters waiter .returned }
    | .idle | .blocked | .returned => none
  | .cancel waiter => some { state with waiters := Function.update state.waiters waiter .idle }

/-- The waiters of the inbox in memory: what it appends is announced at once. -/
def wakeups (codec : InboxCodec) : Wakeups MemoryWaiting MemoryWaitAction ℕ where
  start := initial
  step := step codec
  pending state := 0 < state.inbox.pendingCount
  unannounced _ := False
  waiting state waiter := state.waiters waiter = .blocked ∨ state.waiters waiter = .woken
  returned state waiter := state.waiters waiter = .returned
  own waiter action := action = .resume waiter

/-- Whoever is blocked has nothing to wait for yet. -/
def Blocking (state : MemoryWaiting) : Prop :=
  ∀ waiter, state.waiters waiter = .blocked → state.inbox.messages = []

theorem wake_ne_blocked (waiter : MemoryWaiter) :
  wake waiter ≠ .blocked
  := by
  cases waiter with
  | idle | blocked | woken | returned =>
      intro h
      cases h

/-- A waiter that goes anywhere but to the event. -/
theorem Blocking.update {state : MemoryWaiting} (h : Blocking state) (waiter : ℕ)
    {next : MemoryWaiter} (hnext : next ≠ .blocked) :
  Blocking { state with waiters := Function.update state.waiters waiter next }
  := by
  intro other hblocked
  dsimp only at hblocked
  by_cases hother : other = waiter
  · rw [hother, Function.update_self] at hblocked
    cases hnext hblocked
  · rw [Function.update_of_ne hother] at hblocked
    apply h other hblocked

theorem Blocking.step {codec : InboxCodec} {state state' : MemoryWaiting}
    {action : MemoryWaitAction} (h : Blocking state)
    (hstep : MemoryWaiting.step codec state action = some state') :
  Blocking state'
  := by
  cases action with
  | call call =>
      rw [MemoryWaiting.step] at hstep
      cases hcall : call.appends with
      | true =>
          rw [hcall, if_pos rfl] at hstep
          obtain rfl := Option.some.inj hstep
          intro waiter hblocked
          cases wake_ne_blocked _ hblocked
      | false =>
          rw [hcall, if_neg Bool.false_ne_true] at hstep
          obtain rfl := Option.some.inj hstep
          intro waiter hblocked
          apply InboxState.perform_empty hcall (h waiter hblocked)
  | wait waiter =>
      rw [MemoryWaiting.step] at hstep
      have hwaits : ∀ state', (if state.inbox.messages = [] then
            some { state with
              arrival := false
              waiters := Function.update state.waiters waiter .blocked }
          else some { state with waiters := Function.update state.waiters waiter .returned })
            = some state' → Blocking state' := by
        intro state' hwait
        split at hwait
        · rename_i hempty
          obtain rfl := Option.some.inj hwait
          intro _ _
          apply hempty
        · obtain rfl := Option.some.inj hwait
          apply h.update waiter
          intro hreturned
          cases hreturned
      split at hstep
      · cases hstep
      · cases hstep
      · apply hwaits state' hstep
      · apply hwaits state' hstep
  | resume waiter =>
      rw [MemoryWaiting.step] at hstep
      split at hstep
      · obtain rfl := Option.some.inj hstep
        apply h.update waiter
        intro hreturned
        cases hreturned
      · cases hstep
      · cases hstep
      · cases hstep
  | cancel waiter =>
      obtain rfl := Option.some.inj hstep
      apply h.update waiter
      intro hidle
      cases hidle

/-- No wakeup of the inbox in memory is lost. -/
theorem neverLost (codec : InboxCodec) :
  (wakeups codec).NeverLost
  := by
  apply Wakeups.neverLost_of_invariant (I := Blocking)
  · intro waiter hblocked
    cases hblocked
  · intro state action state' h hstep
    apply h.step hstep
  · intro state h hpending _ waiter hwaiting
    rcases hwaiting with hblocked | hwoken
    · have hsome : 0 < state.inbox.messages.length := hpending
      rw [h waiter hblocked] at hsome
      cases hsome
    · use [.resume waiter]
      constructor
      · intro action haction
        apply List.mem_singleton.mp haction
      · use { state with waiters := Function.update state.waiters waiter .returned }
        constructor
        · apply run_cons_eq_some.mpr
          use { state with waiters := Function.update state.waiters waiter .returned }
          constructor
          · rw [wakeups]
            dsimp only
            rw [MemoryWaiting.step, hwoken]
          · rfl
        · apply Function.update_self

end MemoryWaiting

end Orcastork
