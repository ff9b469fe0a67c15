import Orcastork.Adapters.Memory.InboxWakeups
import Orcastork.Adapters.Redis.Inbox

/-!
# Wakeups of the Redis inbox

`append` of `RedisStreamsInbox` adds the entry to the stream and then publishes a wakeup, in two
commands; `wait_for_entry` subscribes to the wakeups, counts the pending entries, in two commands
too, and then polls its subscription. Between any two commands other clients may act. Still no
wakeup is lost, however many append and wait: a waiter that polls in vain while entries are pending
is told of one by an append that is about to publish, which is what the inbox in memory promises of
its event (`inbox_wakeups_never_lost`).
-/

namespace Orcastork

open TransitionSystem

namespace RedisInbox

/-- An inbox to which nothing was appended since, and in which as many entries are acked. -/
def Counted (inbox inbox' : RedisInbox) : Prop :=
  inbox'.stream = inbox.stream ∧ inbox.acked.getD 0 ≤ inbox'.acked.getD 0

theorem Counted.refl (inbox : RedisInbox) :
  inbox.Counted inbox
  := ⟨rfl, le_refl _⟩

theorem counted_xack (inbox : RedisInbox) (entryId : ℕ) :
  inbox.Counted (inbox.xack entryId).2
  := by
  rw [xack]
  split
  · apply Counted.refl
  · split
    · use rfl
    · apply Counted.refl

theorem counted_raiseEpoch (inbox : RedisInbox) (epoch : Epoch) :
  inbox.Counted (inbox.raiseEpoch epoch)
  := by
  rw [raiseEpoch]
  split
  · use rfl
  · apply Counted.refl

theorem Counted.trans {inbox inbox' inbox'' : RedisInbox} (h : inbox.Counted inbox')
    (h' : inbox'.Counted inbox'') :
  inbox.Counted inbox''
  := ⟨h'.1.trans h.1, le_trans h.2 h'.2⟩

/-- A removal counts what is acked up, if anything. -/
theorem counted_removeScript (inbox : RedisInbox) (epoch : Epoch) (entryId : ℕ)
    {note : RedisInbox → RedisInbox} (hnote : ∀ inbox : RedisInbox, inbox.Counted (note inbox)) :
  inbox.Counted (inbox.removeScript epoch entryId note).2
  := by
  rw [removeScript]
  split
  · apply Counted.refl
  · have hacked := (counted_raiseEpoch inbox epoch).trans (counted_xack _ entryId)
    dsimp only
    split
    · apply hacked.trans (hnote _)
    · apply hacked

theorem counted_countAcked (inbox : RedisInbox) :
  inbox.Counted inbox.countAcked
  := by
  use rfl
  apply Nat.le_succ

theorem counted_consume (decode : Decoder) (inbox : RedisInbox) (maxEntries : Option ℤ) :
  inbox.Counted (inbox.consume decode maxEntries).2
  := by
  rw [consume]
  split
  · apply Counted.refl
  · use rfl

/-- What a call that appends nothing leaves of the counts. -/
theorem counted_perform {codec : InboxCodec} {sessionId : SessionId} (inbox : RedisInbox)
    {call : InboxCall} (hcall : call.appends = false) :
  inbox.Counted (inbox.perform codec sessionId call).2
  := by
  cases call with
  | append dataPoint => cases hcall
  | appendSerialized payload => cases hcall
  | consume maxEntries => apply counted_consume
  | reclaim => exact ⟨rfl, le_refl _⟩
  | ack entryId epoch => apply counted_removeScript inbox epoch entryId counted_countAcked
  | quarantine entryId reason epoch =>
      rw [perform, quarantine, quarantineScript]
      have hgrouped : inbox.Counted { inbox with group := some inbox.ensureGroup } := by
        use rfl
      apply hgrouped.trans
      apply counted_removeScript
      intro removed
      use rfl
      apply Nat.le_succ
  | quarantined => apply Counted.refl
  | pendingCount => apply Counted.refl

theorem Counted.pendingCount_le {inbox inbox' : RedisInbox} (h : inbox.Counted inbox') :
  inbox'.pendingCount ≤ inbox.pendingCount
  := by
  obtain ⟨hstream, hacked⟩ := h
  rw [pendingCount, pendingCount, hstream]
  omega

end RedisInbox

/-- A task in `wait_for_entry` of the Redis inbox, with the messages its subscription holds. -/
inductive RedisWaiter where
  | idle
  /-- Subscribed, before the `XLEN` of `pending_count`. -/
  | subscribed (messages : ℕ)
  /-- Between the `XLEN` and the `GET` of `pending_count`. -/
  | counting (total messages : ℕ)
  | polling (messages : ℕ)
  | returned
  deriving DecidableEq, Repr

/-- The inbox of a session with the appends that are not published and the tasks that wait. -/
structure RedisWaiting where
  inbox : RedisInbox
  /-- How many appends are between their `XADD` and their `PUBLISH`. -/
  unpublished : ℕ
  waiters : ℕ → RedisWaiter

/-- What happens next: the next command of an append, another call or a task. -/
inductive RedisWaitAction where
  | xadd (payload : String)
  | publish
  | call (call : InboxCall)
  | subscribe (waiter : ℕ)
  | xlen (waiter : ℕ)
  | getAcked (waiter : ℕ)
  /-- `get_message`, which is idle or times out where there is no message. -/
  | poll (waiter : ℕ)
  | cancel (waiter : ℕ)

namespace RedisWaiting

/-- A session nobody waits for. -/
def initial : RedisWaiting := ⟨.initial, 0, fun _ => .idle⟩

/-- A waiter when a wakeup is published. -/
def notify : RedisWaiter → RedisWaiter
  | .subscribed messages => .subscribed (messages + 1)
  | .counting total messages => .counting total (messages + 1)
  | .polling messages => .polling (messages + 1)
  | .idle => .idle
  | .returned => .returned

/-- The session where a waiter is at its next command. -/
def setWaiter (state : RedisWaiting) (waiter : ℕ) (next : RedisWaiter) : RedisWaiting :=
  { state with waiters := Function.update state.waiters waiter next }

/-- The session after an action, if it can be taken. -/
def step (codec : InboxCodec) (sessionId : SessionId) (state : RedisWaiting) :
    RedisWaitAction → Option RedisWaiting
  | .xadd payload =>
    some { state with
      inbox := (state.inbox.xadd payload).2
      unpublished := state.unpublished + 1 }
  | .publish =>
    match state.unpublished with
    | 0 => none
    | unpublished + 1 => some ⟨state.inbox, unpublished, notify ∘ state.waiters⟩
  | .call call =>
    if call.appends then none
    else some { state with inbox := (state.inbox.perform codec sessionId call).2 }
  | .subscribe waiter =>
    match state.waiters waiter with
    | .idle | .returned => some (state.setWaiter waiter (.subscribed 0))
    | .subscribed _ | .counting _ _ | .polling _ => none
  | .xlen waiter =>
    match state.waiters waiter with
    | .subscribed messages =>
      some (state.setWaiter waiter (.counting state.inbox.stream.length messages))
    | .idle | .counting _ _ | .polling _ | .returned => none
  | .getAcked waiter =>
    match state.waiters waiter with
    | .counting total messages =>
      if state.inbox.acked.getD 0 < total then some (state.setWaiter waiter .returned)
      else some (state.setWaiter waiter (.polling messages))
    | .idle | .subscribed _ | .polling _ | .returned => none
  | .poll waiter =>
    match state.waiters waiter with
    | .polling messages => some (if 0 < messages then state.setWaiter waiter .returned else state)
    | .idle | .subscribed _ | .counting _ _ | .returned => none
  | .cancel waiter => some (state.setWaiter waiter .idle)

/-- The steps a waiter takes by itself. -/
def own (waiter : ℕ) (action : RedisWaitAction) : Prop :=
  action = .xlen waiter ∨ action = .getAcked waiter ∨ action = .poll waiter

/-- Whether a task waits. -/
def IsWaiting : RedisWaiter → Prop
  | .subscribed _ | .counting _ _ | .polling _ => True
  | .idle | .returned => False

/-- The waiters of the Redis inbox: what it appends is announced where it is published. -/
def wakeups (codec : InboxCodec) (sessionId : SessionId) :
    Wakeups RedisWaiting RedisWaitAction ℕ where
  start := initial
  step := step codec sessionId
  pending state := 0 < state.inbox.pendingCount
  unannounced state := 0 < state.unpublished
  waiting state waiter := IsWaiting (state.waiters waiter)
  returned state waiter := state.waiters waiter = .returned
  own := own

/-! ### Nobody sleeps on -/

/-- A waiter has heard of an append, or will. -/
def Hears (state : RedisWaiting) (messages : ℕ) : Prop := 0 < messages ∨ 0 < state.unpublished

/-- What was appended behind the back of a waiter, it hears of. -/
def Awake (state : RedisWaiting) : RedisWaiter → Prop
  | .counting total messages => total ≤ state.inbox.stream.length
    ∧ (total < state.inbox.stream.length → state.Hears messages)
  | .polling messages => 0 < state.inbox.pendingCount → state.Hears messages
  | .idle | .subscribed _ | .returned => True

variable {codec : InboxCodec} {sessionId : SessionId} {state state' : RedisWaiting}

theorem awake_setWaiter {waiter : ℕ} {next : RedisWaiter}
    (h : ∀ waiter, state.Awake (state.waiters waiter)) (hnext : state.Awake next) (other : ℕ) :
  (state.setWaiter waiter next).Awake ((state.setWaiter waiter next).waiters other)
  := by
  have hawake : state.Awake (Function.update state.waiters waiter next other) := by
    by_cases hother : other = waiter
    · rw [hother, Function.update_self]
      apply hnext
    · rw [Function.update_of_ne hother]
      apply h
  rw [setWaiter]
  dsimp only
  generalize Function.update state.waiters waiter next other = waits at hawake
  cases waits with
  | idle | subscribed messages | counting total messages | polling messages | returned =>
      apply hawake

/-- What is appended is heard of. -/
theorem awake_xadd (h : ∀ waiter, state.Awake (state.waiters waiter)) (payload : String)
    (waiter : ℕ) :
  Awake { state with
    inbox := (state.inbox.xadd payload).2
    unpublished := state.unpublished + 1 } (state.waiters waiter)
  := by
  have hwaits := h waiter
  generalize state.waiters waiter = waits at hwaits
  cases waits with
  | idle | subscribed messages | returned => trivial
  | counting total messages =>
      constructor
      · rw [RedisInbox.xadd, List.length_append]
        apply le_trans hwaits.1 (Nat.le_add_right _ _)
      · intro _
        right
        apply Nat.succ_pos
  | polling messages =>
      intro _
      right
      apply Nat.succ_pos

theorem awake_publish (h : ∀ waiter, state.Awake (state.waiters waiter)) {unpublished : ℕ}
    (waiter : ℕ) :
  Awake ⟨state.inbox, unpublished, notify ∘ state.waiters⟩ (notify (state.waiters waiter))
  := by
  have hwaits := h waiter
  generalize state.waiters waiter = waits at hwaits
  cases waits with
  | idle | subscribed messages | returned => trivial
  | counting total messages =>
      use hwaits.1
      intro _
      left
      apply Nat.succ_pos
  | polling messages =>
      intro _
      left
      apply Nat.succ_pos

/-- What else is done to the inbox makes nothing pending. -/
theorem awake_counted {inbox : RedisInbox} (h : ∀ waiter, state.Awake (state.waiters waiter))
    (hinbox : state.inbox.Counted inbox) (waiter : ℕ) :
  Awake { state with inbox := inbox } (state.waiters waiter)
  := by
  have hwaits := h waiter
  generalize state.waiters waiter = waits at hwaits
  cases waits with
  | idle | subscribed messages | returned => trivial
  | counting total messages =>
      rw [Awake] at hwaits ⊢
      rw [hinbox.1]
      apply hwaits
  | polling messages =>
      intro hpending
      apply hwaits
      apply lt_of_lt_of_le hpending hinbox.pendingCount_le

theorem awake_step {action : RedisWaitAction} (h : ∀ waiter, state.Awake (state.waiters waiter))
    (hstep : step codec sessionId state action = some state') (waiter : ℕ) :
  state'.Awake (state'.waiters waiter)
  := by
  cases action with
  | xadd payload =>
      obtain rfl := Option.some.inj hstep
      apply awake_xadd h payload waiter
  | publish =>
      rw [step] at hstep
      split at hstep
      · cases hstep
      · obtain rfl := Option.some.inj hstep
        apply awake_publish h waiter
  | call call =>
      rw [step, Option.ite_none_left_eq_some, Bool.not_eq_true, Option.some.injEq] at hstep
      obtain ⟨hcall, rfl⟩ := hstep
      apply awake_counted h (state.inbox.counted_perform hcall) waiter
  | subscribe task =>
      rw [step] at hstep
      split at hstep
      · obtain rfl := Option.some.inj hstep
        refine awake_setWaiter h ?_ waiter
        trivial
      · obtain rfl := Option.some.inj hstep
        refine awake_setWaiter h ?_ waiter
        trivial
      · cases hstep
      · cases hstep
      · cases hstep
  | xlen task =>
      rw [step] at hstep
      split at hstep
      · obtain rfl := Option.some.inj hstep
        apply awake_setWaiter h
        use le_refl _
        intro hlt
        cases lt_irrefl _ hlt
      · cases hstep
      · cases hstep
      · cases hstep
      · cases hstep
  | getAcked task =>
      rw [step] at hstep
      split at hstep
      · rename_i total messages hcounting
        split at hstep
        · obtain rfl := Option.some.inj hstep
          refine awake_setWaiter h ?_ waiter
          trivial
        · rename_i hacked
          obtain rfl := Option.some.inj hstep
          apply awake_setWaiter h
          have hwaits := h task
          rw [hcounting] at hwaits
          intro hpending
          -- the entries that are pending were added after the count
          apply hwaits.2
          rw [RedisInbox.pendingCount] at hpending
          omega
      · cases hstep
      · cases hstep
      · cases hstep
      · cases hstep
  | poll task =>
      rw [step] at hstep
      split at hstep
      · obtain rfl := Option.some.inj hstep
        split
        · refine awake_setWaiter h ?_ waiter
          trivial
        · apply h
      · cases hstep
      · cases hstep
      · cases hstep
      · cases hstep
  | cancel task =>
      obtain rfl := Option.some.inj hstep
      refine awake_setWaiter h ?_ waiter
      trivial

/-! ### Everybody gets on -/

/-- A waiter returns by steps of its own. -/
def GetsOn (codec : InboxCodec) (sessionId : SessionId) (state : RedisWaiting) (waiter : ℕ) :
    Prop :=
  ∃ next, (∀ action ∈ next, own waiter action)
    ∧ ∃ state', run (step codec sessionId) state next = some state'
      ∧ state'.waiters waiter = .returned

theorem getsOn_of_step {waiter : ℕ} {action : RedisWaitAction} (haction : own waiter action)
    (hstep : step codec sessionId state action = some state')
    (h : GetsOn codec sessionId state' waiter) :
  GetsOn codec sessionId state waiter
  := by
  obtain ⟨next, hnext, final, hrun, hreturned⟩ := h
  use action :: next
  constructor
  · intro other hother
    rcases List.mem_cons.mp hother with rfl | hother
    · apply haction
    · apply hnext other hother
  · use final
    constructor
    · apply run_cons_eq_some.mpr
      use state', hstep
    · apply hreturned

theorem getsOn_returned (state : RedisWaiting) (waiter : ℕ) :
  GetsOn codec sessionId (state.setWaiter waiter .returned) waiter
  := by
  use []
  constructor
  · intro action haction
    cases haction
  · use state.setWaiter waiter .returned, rfl
    apply Function.update_self

theorem getsOn_polling {waiter messages : ℕ} (hpolling : state.waiters waiter = .polling messages)
    (hmessages : 0 < messages) :
  GetsOn codec sessionId state waiter
  := by
  apply getsOn_of_step (.inr (.inr rfl)) _ (getsOn_returned state waiter)
  rw [step, hpolling]
  apply congrArg some (if_pos hmessages)

theorem getsOn_counting {waiter total messages : ℕ}
    (hcounting : state.waiters waiter = .counting total messages)
    (hawake : state.Awake (.counting total messages)) (hpending : 0 < state.inbox.pendingCount)
    (hpublished : state.unpublished = 0) :
  GetsOn codec sessionId state waiter
  := by
  rw [RedisInbox.pendingCount] at hpending
  by_cases hacked : state.inbox.acked.getD 0 < total
  · apply getsOn_of_step (.inr (.inl rfl)) _ (getsOn_returned state waiter)
    rw [step, hcounting]
    apply if_pos hacked
  · -- what is pending was added after the count, and is published
    have hmessages : 0 < messages := by
      rcases hawake.2 (by omega) with hmessages | hunpublished
      · apply hmessages
      · rw [hpublished] at hunpublished
        cases hunpublished
    have hstep : step codec sessionId state (.getAcked waiter)
        = some (state.setWaiter waiter (.polling messages)) := by
      rw [step, hcounting]
      apply if_neg hacked
    apply getsOn_of_step (.inr (.inl rfl)) hstep
    apply getsOn_polling _ hmessages
    apply Function.update_self

/-- No wakeup of the Redis inbox is lost. -/
theorem neverLost (codec : InboxCodec) (sessionId : SessionId) :
  (wakeups codec sessionId).NeverLost
  := by
  apply Wakeups.neverLost_of_invariant
    (I := fun state : RedisWaiting => ∀ waiter, state.Awake (state.waiters waiter))
  · intro waiter
    trivial
  · intro state action state' h hstep
    apply awake_step h hstep
  · intro state h hpending hannounced waiter hwaiting
    have hpublished : state.unpublished = 0 := Nat.eq_zero_of_not_pos hannounced
    have hawake := h waiter
    change IsWaiting (state.waiters waiter) at hwaiting
    change GetsOn codec sessionId state waiter
    cases hwaits : state.waiters waiter with
    | idle | returned =>
        rw [hwaits] at hwaiting
        cases hwaiting
    | subscribed messages =>
        have hstep : step codec sessionId state (.xlen waiter) = some (state.setWaiter waiter
            (.counting state.inbox.stream.length messages)) := by
          rw [step, hwaits]
        have hcounted : (state.setWaiter waiter
            (.counting state.inbox.stream.length messages)).Awake
              (.counting state.inbox.stream.length messages) := by
          use le_refl _
          intro hlt
          cases lt_irrefl _ hlt
        apply getsOn_of_step (.inl rfl) hstep
        apply getsOn_counting _ hcounted hpending hpublished
        apply Function.update_self
    | counting total messages =>
        rw [hwaits] at hawake
        apply getsOn_counting hwaits hawake hpending hpublished
    | polling messages =>
        rw [hwaits] at hawake
        apply getsOn_polling hwaits
        rcases hawake hpending with hmessages | hunpublished
        · apply hmessages
        · rw [hpublished] at hunpublished
          cases hunpublished

end RedisWaiting

/-- Whatever is appended to an inbox, acked and waited for, and in whatever order the commands of
the tasks go: where entries are pending, and every append has published its wakeup, each task that
waits returns by its own steps. Appends of the inbox in memory wake at once. -/
theorem inbox_wakeups_never_lost (codec : InboxCodec) (sessionId : SessionId) :
  (MemoryWaiting.wakeups codec).NeverLost ∧ (RedisWaiting.wakeups codec sessionId).NeverLost
  := ⟨MemoryWaiting.neverLost codec, RedisWaiting.neverLost codec sessionId⟩

end Orcastork
