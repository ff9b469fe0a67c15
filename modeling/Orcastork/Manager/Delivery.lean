import Orcastork.Manager.Reopen

/-!
# No delivery is lost

While an entry of a started session is pending, some call has yet to make sure that it is drained.
A call that stands down leaves the entry to the owner of the lock: to a run that still looks at the
inbox, or to its manager, which probes the inbox after the release.

A run that parks is no such owner: nobody probes after it, so what is pending when it parks is left
to the deliveries of the entries, which may have stood down for the run. A delivery that finds it
parked is covered by its recheck, unless the completion flag is set: a delivery to a completed
session takes the owner for one that completes, and stands down. The flag is set while a run parks
if the run was granted the lock after another one had completed the session.
-/

namespace Orcastork

/-- Entries have landed in an inbox: what is pending was before, or has landed. -/
def InboxState.Grows (inbox inbox' : InboxState) : Prop :=
  inbox.nextId ≤ inbox'.nextId
    ∧ (inbox'.messages ≠ [] → inbox.messages ≠ [] ∨ inbox.nextId < inbox'.nextId)

theorem InboxState.Later.grows {inbox inbox' : InboxState} (h : inbox.Later inbox') :
  inbox.Grows inbox'
  := by
  obtain ⟨hnext, hempty⟩ := h
  use hnext.ge
  intro hpending
  left
  intro hnone
  apply hpending (hempty hnone)

theorem InboxState.grows_append (inbox : InboxState) (payload : String) :
  inbox.Grows (inbox.append payload).2
  := by
  use Nat.le_succ _
  intro
  right
  apply Nat.lt_succ_self

theorem InboxState.Later.refl (inbox : InboxState) :
  inbox.Later inbox
  := ⟨rfl, id⟩

/-- A move of a run appends nothing. -/
theorem Run.Moved.later {K : Type} [DecidableEq K] {flow : Flow} {shared shared' : Shared K}
    {run run' : Run K} {m : RunMove K} (h : run.Moved flow shared m shared' run') :
  shared.inbox.Later shared'.inbox
  := by
  cases h with
  | reclaim _ hreclaim =>
      have hlater := @InboxState.later_reclaim shared.inbox flow.decode
      rw [hreclaim] at hlater
      apply hlater
  | reclaimRaises _ hreclaim =>
      have hlater := @InboxState.later_reclaim shared.inbox flow.decode
      rw [hreclaim] at hlater
      apply hlater
  | consume _ hconsume =>
      have hlater := @InboxState.later_consume shared.inbox flow.decode none
      rw [hconsume] at hlater
      apply hlater
  | consumeRaises _ hconsume =>
      have hlater := @InboxState.later_consume shared.inbox flow.decode none
      rw [hconsume] at hlater
      apply hlater
  | ack _ hack => apply InboxState.later_ack hack
  | quarantine _ hquarantine => apply InboxState.later_quarantine hquarantine
  | _ => apply InboxState.Later.refl

/-- A run that has looked at the inbox for the last time, to complete. -/
def Stage.checked : Stage → Bool
  | .complete => true
  | .release .completed => true
  | _ => false

/-- A run that has looked at the inbox for the last time has just done so and found it empty, or
had before and has left the inbox as it is. -/
theorem Run.Moved.checked {K : Type} [DecidableEq K] {flow : Flow} {shared shared' : Shared K}
    {run run' : Run K} {m : RunMove K} (h : run.Moved flow shared m shared' run')
    (hchecked : run'.stage.checked = true) :
  shared'.inbox = shared.inbox
    ∧ (run.stage.checked = true ∧ run'.checkedAt = run.checkedAt
      ∨ shared.inbox.messages = [] ∧ run'.checkedAt = shared.inbox.nextId)
  := by
  cases h with
  | inboxEmpty _ _ _ hempty =>
      use rfl
      right
      use hempty
  | markComplete hstage _ =>
      use rfl
      left
      rw [hstage]
      use rfl
      rfl
  | renew hstage =>
      obtain hstage | hstage := hstage
      · rw [hstage] at hchecked
        cases hchecked
      · rw [hstage] at hchecked
        cases hchecked
  | merge hstage | reclaim hstage | consume hstage | ack hstage | quarantine hstage
  | finalize hstage | deadLetter hstage | markContribution hstage =>
      simp only [hstage, Stage.checked, Bool.false_eq_true] at hchecked
  | _ => cases hchecked

namespace Manager

open TransitionSystem (Always)

variable {K : Type}

/-- A call has yet to make sure that what is pending is drained: its run has not looked at the inbox
for the last time, or it will probe the inbox, or it has yet to make its tests, to acquire the lock,
or to wake. -/
def Point.outstanding : Point K → Bool
  | .running spawn run =>
    match run.stage with
    | .complete => spawn.respawns < maxBackstopRespawns
    | .release .completed => spawn.respawns < maxBackstopRespawns
    | .release _ => false
    | _ => true
  | .returned => false
  | _ => true

/-- A session was started. -/
def Started (s : State K) : Prop := s.shared.lock.currentEpoch ≠ 0

/-- The spawn a call is in. -/
def Point.spawn? : Point K → Option Spawn
  | .clearComplete spawn => some spawn
  | .clearing spawn _ => some spawn
  | .running spawn _ => some spawn
  | .probe spawn _ => some spawn
  | _ => none

/-- The run a call is in parks: it has yet to release the lock. -/
def Point.parks : Point K → Bool
  | .running _ run => run.stage = .release .parked
  | _ => false

/-- A delivery that is about to see whether the session is complete. -/
def Point.delivers : Point K → Bool
  | .test (.deliverIsComplete _) => true
  | _ => false

/-- Fewer entries than a spawn re-spawns for landed behind its inbox checks. -/
def GapsBounded (s : State K) : Prop :=
  ∀ point ∈ s.points, ∀ spawn ∈ point.spawn?, spawn.gapLandings < maxBackstopRespawns

/-- A delivery that does not ask for a re-open begins. -/
def Action.leavesComplete : Action K → Bool
  | .invoke (.deliver _ reopenIfComplete) => !reopenIfComplete
  | _ => false

/-- A run fails. -/
def Action.fails (flow : Flow) (s : State K) : Action K → Bool
  | .move _ (.run .raise) => true
  | .move _ (.run .reclaim) => !(s.shared.inbox.reclaim flow.decode).1.toBool
  | .move _ (.run .consume) => !(s.shared.inbox.consume flow.decode none).1.toBool
  | _ => false

/-- A delivery finds the session complete while a run that parks still holds the lock. -/
def Action.findsParking (s : State K) : Action K → Bool
  | .move i .test =>
    s.points[i]?.any Point.delivers && s.shared.lock.isComplete && s.points.any Point.parks
  | _ => false

/-- A run parks while an entry is pending. -/
def Action.parksPending (s : State K) : Action K → Bool
  | .move _ (.run .park) => s.shared.inbox.pendingCount ≠ 0
  | _ => false

/-- Nothing crashes or fails, deliveries ask for a re-open, and spawns re-spawn often enough. -/
structure Regular (flow : Flow) (s : State K) (action : Action K) : Prop where
  undisturbed : Undisturbed s action
  unfailing : action.fails flow s = false
  reopens : action.leavesComplete = false
  gaps : GapsBounded s

/-! ### What a call counts on -/

/-- A call whose delivery asks for a re-open. -/
def Point.reopens : Point K → Bool
  | .append _ reopenIfComplete => reopenIfComplete
  | .test (.deliverIsComplete reopenIfComplete) => reopenIfComplete
  | .test (.deliverIsHeld reopenIfComplete) => reopenIfComplete
  | .sleeping _ reopenIfComplete => reopenIfComplete
  | _ => true

/-- How many entries had landed when the run of a call last looked at the inbox. -/
def Point.checkedAt? : Point K → Option ℕ
  | .running _ run => if run.stage.checked then some run.checkedAt else none
  | .probe _ checkedAt => some checkedAt
  | _ => none

/-- What is pending landed after a look at the inbox. -/
def Behind (inbox : InboxState) (checkedAt : ℕ) : Prop :=
  checkedAt ≤ inbox.nextId ∧ (inbox.messages ≠ [] → checkedAt < inbox.nextId)

/-- What holds of a call: it asks for a re-open, its run has neither failed nor been superseded and
may re-spawn, every re-spawn was for an entry that landed behind a look at the inbox, and so did
whatever has been pending since. -/
structure Point.Sound (inbox : InboxState) (point : Point K) : Prop where
  reopens : point.reopens = true
  ended : ∀ run ∈ point.run?, run.stage ≠ .release .superseded ∧ run.stage ≠ .release .failed
  respawns_le : ∀ spawn ∈ point.spawn?, spawn.respawns ≤ spawn.gapLandings
  respawns_lt : ∀ spawn run, point = .running spawn run → spawn.respawns < maxBackstopRespawns
  behind : ∀ checkedAt ∈ point.checkedAt?, Behind inbox checkedAt

/-- A call that goes on to drain the inbox, if nothing else happens but that the run that holds the
lock parks. -/
def Point.Awaits (shared : Shared K) : Point K → Prop
  | .test (.deliverIsComplete _) => True
  | .test (.deliverIsHeld _) => shared.lock.isComplete = false
  | .sleeping dueAt _ => ∀ lease ∈ shared.lock.lease, lease.expiresAt ≤ dueAt
  | .test .resumeIsComplete =>
    shared.lock.isLive shared.now = false ∧ shared.lock.isComplete = false
  | .test .reopenIsComplete =>
    shared.lock.isLive shared.now = false ∧ shared.lock.isComplete = true
  | .test _ => shared.lock.isLive shared.now = false
  | .clearComplete _ => shared.lock.isLive shared.now = false
  | .clearing _ _ => shared.lock.isLive shared.now = false
  | .probe _ _ => shared.lock.isLive shared.now = false
  | _ => False

/-- A run that does not park drains the inbox or leaves that to its manager, or a call goes on to
drain it. -/
def Attends (s : State K) : Prop :=
  (∃ i run, Runs s.points i run ∧ run.stage ≠ .release .parked)
    ∨ ∃ (i : ℕ) (point : Point K), s.points[i]? = some point ∧ point.Awaits s.shared

/-- What holds of a session without crashes: its calls are sound, its lease is live and no longer
than the lock's, and what is pending is attended to. -/
structure Attended (flow : Flow) (s : State K) : Prop where
  owned : Owned s
  sound : ∀ (i : ℕ) (point : Point K), s.points[i]? = some point → point.Sound s.shared.inbox
  lease : ∀ lease, s.shared.lock.lease = some lease →
    s.shared.now < lease.expiresAt ∧ lease.expiresAt ≤ s.shared.now + flow.ttl
  attends : Started s → s.shared.inbox.messages ≠ [] → Attends s

/-! ### Calls stay sound -/

variable [DecidableEq K] {flow : Flow} {shared shared' : Shared K} {points : List (Point K)}
  {point point' : Point K} {i : ℕ} {m : Move K} {inbox inbox' : InboxState}

theorem Behind.grows {checkedAt : ℕ} (h : Behind inbox checkedAt) (hgrows : inbox.Grows inbox') :
  Behind inbox' checkedAt
  := by
  obtain ⟨hle, hlt⟩ := h
  obtain ⟨hnext, hpending⟩ := hgrows
  constructor
  · apply hle.trans hnext
  · intro hne
    obtain hbefore | hlanded := hpending hne
    · apply (hlt hbefore).trans_le hnext
    · apply hle.trans_lt hlanded

omit [DecidableEq K] in
/-- A call stays sound when entries land. -/
theorem Point.Sound.grows (h : point.Sound inbox) (hgrows : inbox.Grows inbox') :
  point.Sound inbox'
  := by
  constructor
  · apply h.reopens
  · apply h.ended
  · apply h.respawns_le
  · apply h.respawns_lt
  · intro checkedAt hchecked
    apply (h.behind checkedAt hchecked).grows hgrows

/-- A move lets entries land. -/
theorem Moved.grows (h : Moved flow shared point m shared' point') :
  shared.inbox.Grows shared'.inbox
  := by
  cases h with
  | append => apply InboxState.grows_append
  | run hrun => apply hrun.later.grows
  | _ => apply (InboxState.Later.refl _).grows

omit [DecidableEq K] in
/-- A call that is neither in a run nor past one is sound if it asks for a re-open and every
re-spawn was for an entry that landed. -/
theorem Point.sound_of_none (hrun : point.run? = none) (hchecked : point.checkedAt? = none)
    (hreopens : point.reopens = true)
    (hrespawns : ∀ spawn ∈ point.spawn?, spawn.respawns ≤ spawn.gapLandings) :
  point.Sound inbox
  := by
  constructor
  · apply hreopens
  · rw [hrun]
    nofun
  · apply hrespawns
  · rintro spawn run rfl
    cases hrun
  · rw [hchecked]
    nofun

omit [DecidableEq K] in
/-- A test leads to no look at the inbox. -/
theorem Test.checkedAt?_next (test : Test) :
  (test.next flow shared : Point K).checkedAt? = none
  := by
  cases test <;> rw [Test.next] <;> split
  all_goals first | rfl | (split <;> rfl)

omit [DecidableEq K] in
/-- A test leads to the first run of a spawn, if to any. -/
theorem Test.spawn?_next (test : Test) :
  ∀ spawn ∈ (test.next flow shared : Point K).spawn?, spawn = .first
  := by
  intro spawn hspawn
  cases test <;> rw [Test.next] at hspawn <;> split at hspawn
  all_goals first | cases hspawn | (split at hspawn <;> cases hspawn)
  all_goals rfl

omit [DecidableEq K] in
/-- A test keeps the wish for a re-open. -/
theorem Test.reopens_next {test : Test} (h : (Point.test test : Point K).reopens = true) :
  (test.next flow shared : Point K).reopens = true
  := by
  cases test <;> rw [Test.next] <;> split
  all_goals first | rfl | apply h | (split <;> rfl)

/-- A run that moves while it holds the lock, and does not fail, keeps its call sound. -/
theorem Point.Sound.moved_run {spawn : Spawn} {run run' : Run K} {m : RunMove K}
    (h : (Point.running spawn run).Sound shared.inbox)
    (hrun : run.Moved flow shared m shared' run')
    (hheld : shared.lock.heldBy run.epoch shared.now = true)
    (hunfailing : (Action.move i (.run m)).fails flow ⟨shared, points⟩ = false) :
  (Point.running spawn run').Sound shared'.inbox
  := by
  constructor
  · rfl
  · rintro _ ⟨⟩
    constructor
    · intro hstage
      cases hrun.ended hstage with
      | superseded hfree => cases hheld.symm.trans hfree
    · intro hstage
      cases hrun.ended hstage with
      | failed hfailed =>
          obtain rfl | ⟨rfl, error, herror⟩ | ⟨rfl, error, herror⟩ := hfailed
          · cases hunfailing
          · rw [Action.fails, herror] at hunfailing
            cases hunfailing
          · rw [Action.fails, herror] at hunfailing
            cases hunfailing
  · apply h.respawns_le
  · rintro _ _ ⟨⟩
    apply h.respawns_lt spawn run rfl
  · intro checkedAt hmem
    rw [Point.checkedAt?] at hmem
    split at hmem
    · rename_i hchecked
      cases hmem
      obtain ⟨hinbox, ⟨hbefore, hsame⟩ | ⟨hempty, hnow⟩⟩ := hrun.checked hchecked
      · rw [hinbox, hsame]
        apply h.behind
        rw [Point.checkedAt?, if_pos hbefore]
        rfl
      · rw [hinbox, hnow]
        use Nat.le_refl _
        intro hne
        exact absurd hempty hne
    · cases hmem

/-- A move keeps a call sound that does not fail, crash, or lose the lock. -/
theorem Point.Sound.moved (h : point.Sound shared.inbox)
    (hmoved : Moved flow shared point m shared' point')
    (hgaps : ∀ spawn ∈ point.spawn?, spawn.gapLandings < maxBackstopRespawns)
    (hheld : ∀ run ∈ point.run?, shared.lock.heldBy run.epoch shared.now = true)
    (hunfailing : (Action.move i m).fails flow ⟨shared, points⟩ = false) :
  point'.Sound shared'.inbox
  := by
  cases hmoved with
  | append =>
      apply Point.sound_of_none rfl rfl
      · apply h.reopens
      · intros
        contradiction
  | test =>
      apply Point.sound_of_none (Test.run?_next _) (Test.checkedAt?_next _)
      · apply Test.reopens_next h.reopens
      · intro spawn hspawn
        rw [Test.spawn?_next _ spawn hspawn]
        rfl
  | @wake dueAt reopenIfComplete _ =>
      apply Point.sound_of_none rfl rfl
      · have hreopens : reopenIfComplete = true := h.reopens
        rw [hreopens]
        rfl
      · intros
        contradiction
  | clearComplete =>
      apply Point.sound_of_none rfl rfl rfl
      apply h.respawns_le
  | clearContribution =>
      apply Point.sound_of_none rfl rfl rfl
      apply h.respawns_le
  | acquired =>
      constructor
      · rfl
      · rintro _ ⟨⟩
        constructor
        · intro hstage
          cases hstage
        · intro hstage
          cases hstage
      · apply h.respawns_le
      · rintro _ _ ⟨⟩
        apply (h.respawns_le _ rfl).trans_lt (hgaps _ rfl)
      · intros
        contradiction
  | run hrun => apply h.moved_run hrun (hheld _ rfl) hunfailing
  | @release spawn run status hstage =>
      rw [afterRun]
      split
      · rename_i hcompleted
        constructor
        · rfl
        · intros
          contradiction
        · apply h.respawns_le
        · intros
          contradiction
        · rintro _ ⟨⟩
          apply h.behind
          rw [Point.checkedAt?, hstage, hcompleted.1]
          rfl
      · apply Point.sound_of_none rfl rfl rfl
        intros
        contradiction
  | @probePending spawn checkedAt hpending =>
      apply Point.sound_of_none rfl rfl rfl
      rintro _ ⟨⟩
      have hrespawns := h.respawns_le _ rfl
      have hlanded := (h.behind _ rfl).2 hpending
      simp only
      omega
  | _ =>
      apply Point.sound_of_none rfl rfl rfl
      intros
      contradiction

/-! ### What is pending stays attended to -/

omit [DecidableEq K] in
/-- A call that moves attends to what is pending if it awaits the lock afterwards. -/
theorem attends_of_awaits (hi : points[i]? = some point) (h : point'.Awaits shared') :
  Attends ⟨shared', points.set i point'⟩
  := by
  right
  use i, point', Threads.getElem?_set_self hi

omit [DecidableEq K] in
/-- A call that moves and is in no run leaves what is pending attended to, if the calls that await
the lock still do, and it would itself with no run but one that parks. -/
theorem Attends.moved (h : Attends ⟨shared, points⟩) (hi : points[i]? = some point)
    (hpoint : point.run? = none)
    (hothers : ∀ other : Point K, other.Awaits shared → other.Awaits shared')
    (hself : (∀ j run, Runs points j run → run.stage = .release .parked) →
      point.Awaits shared → point'.Awaits shared') :
  Attends ⟨shared', points.set i point'⟩
  := by
  by_cases hparks : ∀ j run, Runs points j run → run.stage = .release .parked
  · obtain ⟨j, run, hj, hstage⟩ | ⟨j, other, hj, hawaits⟩ := h
    · exact absurd (hparks j run hj) hstage
    · by_cases hji : j = i
      · rw [hji] at hj
        cases hi.symm.trans hj
        apply attends_of_awaits hi (hself hparks hawaits)
      · right
        use j, other
        constructor
        · apply Threads.getElem?_set_of_ne hji hj
        · apply hothers other hawaits
  · push Not at hparks
    obtain ⟨j, run, ⟨spawn, hj⟩, hstage⟩ := hparks
    have hne : j ≠ i := by
      rintro rfl
      cases hi.symm.trans hj
      cases hpoint
    left
    use j, run
    constructor
    · use spawn
      apply Threads.getElem?_set_of_ne hne hj
    · apply hstage

omit [DecidableEq K] in
/-- Whoever awaits the lock goes on to await it if no lease is granted, the completion flag is not
set, and what is free stays free and complete. -/
theorem Point.Awaits.mono (h : point.Awaits shared)
    (hlease : ∀ lease ∈ shared'.lock.lease, lease ∈ shared.lock.lease)
    (hunset : shared.lock.isComplete = false → shared'.lock.isComplete = false)
    (hfree : shared.lock.isLive shared.now = false →
      shared'.lock.isLive shared'.now = false
        ∧ shared'.lock.isComplete = shared.lock.isComplete) :
  point.Awaits shared'
  := by
  cases point with
  | test test =>
      cases test with
      | deliverIsComplete => apply h
      | deliverIsHeld => apply hunset h
      | resumeIsComplete =>
          use (hfree h.1).1
          apply hunset h.2
      | reopenIsComplete =>
          use (hfree h.1).1
          apply (hfree h.1).2.trans h.2
      | _ => apply (hfree h).1
  | sleeping =>
      intro lease hmem
      apply h lease (hlease lease hmem)
  | clearComplete => apply (hfree h).1
  | clearing => apply (hfree h).1
  | probe => apply (hfree h).1
  | _ => apply h

omit [DecidableEq K] in
/-- So it does if neither the lock nor the clock changes. -/
theorem Point.Awaits.congr (h : point.Awaits shared) (hlock : shared'.lock = shared.lock)
    (hnow : shared'.now = shared.now) :
  point.Awaits shared'
  := by
  apply h.mono
  · rw [hlock]
    intro lease hmem
    apply hmem
  · rw [hlock]
    apply id
  · rw [hlock, hnow]
    intro hfree
    use hfree

omit [DecidableEq K] in
/-- A test leads on to the inbox if no delivery finds the session complete while a run parks. -/
theorem Test.awaits_next {test : Test} (hstarted : shared.lock.currentEpoch ≠ 0)
    (hlease : ∀ lease, shared.lock.lease = some lease →
      shared.now < lease.expiresAt ∧ lease.expiresAt ≤ shared.now + flow.ttl)
    (hrecheck : flow.ttl ≤ flow.redeliveryRecheck)
    (hreopens : (Point.test test : Point K).reopens = true)
    (hfree : (Point.test test : Point K).delivers = true → shared.lock.isComplete = true →
      shared.lock.isLive shared.now = false)
    (h : (Point.test test).Awaits shared) :
  (test.next flow shared).Awaits shared
  := by
  cases test with
  | deliverIsComplete reopenIfComplete =>
      have hreopens' : reopenIfComplete = true := hreopens
      rw [Test.next, if_pos hreopens']
      split
      · rename_i hcomplete
        use hfree rfl hcomplete
      · rename_i hcomplete
        apply Bool.eq_false_iff.mpr hcomplete
  | deliverIsHeld reopenIfComplete =>
      rw [Test.next]
      split
      · intro lease hmem
        apply (hlease lease hmem).2.trans
        apply Nat.add_le_add_left hrecheck
      · rename_i hheld
        use Bool.eq_false_iff.mpr hheld
        apply h
  | reopenOrResume =>
      rw [Test.next]
      split
      · rename_i hcomplete
        use h
      · rename_i hcomplete
        use h
        apply Bool.eq_false_iff.mpr hcomplete
  | resumeIsComplete =>
      rw [Test.next, if_neg (Bool.eq_false_iff.mp h.2)]
      apply h.1
  | resumeCurrentEpoch =>
      rw [Test.next, if_neg hstarted]
      apply h
  | resumeIsHeld =>
      have hheld : shared.lock.isHeld shared.now = false := h
      rw [Test.next, hheld]
      apply h
  | reopenIsComplete =>
      rw [Test.next, if_pos h.2]
      apply h.1
  | reopenIsHeld =>
      have hheld : shared.lock.isHeld shared.now = false := h
      rw [Test.next, hheld]
      apply h

/-- What is pending stays attended to when a call moves that neither crashes nor fails, if no
delivery finds the session complete while a run parks, and no run parks while something is
pending. -/
theorem Attended.attends_moved (h : Attended flow ⟨shared, points⟩)
    (hrecheck : flow.ttl ≤ flow.redeliveryRecheck) (hi : points[i]? = some point)
    (hmoved : Moved flow shared point m shared' point')
    (hundisturbed : Undisturbed ⟨shared, points⟩ (.move i m))
    (hparks : (Action.move i m).findsParking ⟨shared, points⟩ = false)
    (hdrained : (Action.move i m).parksPending ⟨shared, points⟩ = false)
    (hstarted : Started ⟨shared', points.set i point'⟩)
    (hpending : shared'.inbox.messages ≠ []) :
  Attends ⟨shared', points.set i point'⟩
  := by
  cases hmoved with
  | append =>
      apply attends_of_awaits hi
      trivial
  | @acquired spawn permitted epoch lock =>
      left
      use i, .granted K epoch (flow.aggregators.filter (· ∈ permitted))
      constructor
      · apply (runs_self hi).mpr rfl
      · intro hstage
        cases hstage
  | test =>
      apply (h.attends hstarted hpending).moved hi rfl
      · intro other hawaits
        apply hawaits
      · intro hall
        apply Test.awaits_next hstarted h.lease hrecheck (h.sound i _ hi).reopens
        intro hdelivers hcomplete
        apply Bool.eq_false_iff.mpr
        intro hlive
        obtain ⟨j, run, spawn, hj⟩ := h.owned.owner hlive
        have hany : points.any Point.parks = true := by
          apply List.any_eq_true.mpr
          use .running spawn run, List.mem_of_getElem? hj
          rw [Point.parks, hall j run ⟨spawn, hj⟩]
          rfl
        rw [Action.findsParking, hi, hcomplete, hany, Option.any_some, hdelivers] at hparks
        cases hparks
  | @wake dueAt reopenIfComplete hdue =>
      apply (h.attends hstarted hpending).moved hi rfl
      · intro other hawaits
        apply hawaits
      · intro _ hawaits
        have hreopens : reopenIfComplete = true := (h.sound i _ hi).reopens
        rw [hreopens]
        apply Bool.eq_false_iff.mpr
        intro hlive
        obtain ⟨lease, hlease, hexpires⟩ := LockState.isLive_iff.mp hlive
        exact absurd ((hawaits lease hlease).trans hdue) (Nat.not_le.mpr hexpires)
  | clearComplete =>
      cases hlive : shared.lock.isLive shared.now with
      | false =>
          apply attends_of_awaits hi
          apply hlive
      | true =>
          apply (h.attends hstarted hpending).moved hi rfl
          · intro other hawaits
            apply hawaits.mono
            · intro lease hmem
              apply hmem
            · intro
              rfl
            · intro hfree
              cases hlive.symm.trans hfree
          · intro _ hfree
            cases hlive.symm.trans hfree
  | clearContribution =>
      apply (h.attends hstarted hpending).moved hi rfl
      · intro other hawaits
        apply hawaits.congr rfl rfl
      · intro _ hfree
        apply hfree
  | lockHeld hlive =>
      apply (h.attends hstarted hpending).moved hi rfl
      · intro other hawaits
        apply hawaits
      · intro _ hfree
        cases hlive.symm.trans hfree
  | @run spawn run run' m _ hrun =>
      left
      use i, run'
      constructor
      · apply (runs_self hi).mpr rfl
      · intro hstage
        cases hrun.ended hstage with
        | parked hm hsame =>
            rw [hsame] at hpending
            rw [hm] at hdrained
            apply hpending
            apply List.length_eq_zero_iff.mp
            apply not_not.mp
            apply of_decide_eq_false hdrained
  | @release spawn run status hstage =>
      have hsound := h.sound i _ hi
      have hrelease := h.owned.release_eq hi
      obtain ⟨hsuperseded, hfailed⟩ := hsound.ended run rfl
      cases status with
      | completed =>
          apply attends_of_awaits hi
          rw [afterRun, if_pos ⟨rfl, hsound.respawns_lt spawn run rfl⟩, Point.Awaits, hrelease]
          rfl
      | parked =>
          have hstarted' : Started ⟨shared, points⟩ := by
            rw [Started, LockState.currentEpoch_release] at hstarted
            apply hstarted
          obtain ⟨j, run', hj, hother⟩ | ⟨j, other, hj, hawaits⟩ := h.attends hstarted' hpending
          · obtain rfl := h.owned.unique hj ⟨spawn, hi⟩
            obtain ⟨spawn', hj⟩ := hj
            cases hi.symm.trans hj
            exact absurd hstage hother
          · right
            use j, other
            constructor
            · apply Threads.getElem?_set_of_ne _ hj
              rintro rfl
              cases hi.symm.trans hj
              apply hawaits
            · apply hawaits.mono
              · rw [hrelease]
                intros
                contradiction
              · rw [hrelease]
                apply id
              · rw [hrelease]
                intro
                use rfl
                rfl
      | superseded => exact absurd hstage hsuperseded
      | failed => exact absurd hstage hfailed
  | probeEmpty hempty => exact absurd hempty hpending
  | probePending =>
      apply (h.attends hstarted hpending).moved hi rfl
      · intro other hawaits
        apply hawaits
      · intro _ hfree
        apply hfree
  | crash => exact absurd hundisturbed id

/-- A move leaves a lease live, and no longer than the lock's. -/
theorem Attended.lease_moved (h : Attended flow ⟨shared, points⟩) (httl : 0 < flow.ttl)
    (hmoved : Moved flow shared point m shared' point') :
  ∀ lease, shared'.lock.lease = some lease →
    shared'.now < lease.expiresAt ∧ lease.expiresAt ≤ shared'.now + flow.ttl
  := by
  intro lease hlease
  cases hmoved with
  | acquired hacquire =>
      obtain ⟨-, -, rfl⟩ := LockState.acquire_eq_ok.mp hacquire
      cases hlease
      use Nat.lt_add_of_pos_right httl
  | run hrun =>
      obtain ⟨-, hnow, -⟩ := hrun.frame
      rw [hnow]
      obtain hlock | ⟨-, hlock⟩ | ⟨-, hlock⟩ := hrun.lock
      · rw [hlock] at hlease
        apply h.lease lease hlease
      · rw [hlock] at hlease
        cases hlease
        use Nat.lt_add_of_pos_right httl
      · rw [hlock] at hlease
        apply h.lease lease hlease
  | @release spawn run status _ =>
      obtain ⟨hrelease, -⟩ | ⟨hrelease, -⟩ := LockState.release_eq shared.lock run.epoch
      · simp only [hrelease] at hlease
        cases hlease
      · simp only [hrelease] at hlease
        apply h.lease lease hlease
  | _ => apply h.lease lease hlease

/-- A session without crashes stays attended if no delivery finds it complete while a run parks, and
no run parks while something is pending. -/
theorem Attended.step {s s' : State K} {action : Action K} (h : Attended flow s)
    (httl : 0 < flow.ttl) (hrecheck : flow.ttl ≤ flow.redeliveryRecheck)
    (hregular : Regular flow s action) (hparks : action.findsParking s = false)
    (hdrained : action.parksPending s = false) (hstep : step flow s action = some s') :
  Attended flow s'
  := by
  obtain ⟨hundisturbed, hunfailing, hreopens, hgaps⟩ := hregular
  have howned := h.owned.step httl hundisturbed hstep
  obtain ⟨ticks, rfl, rfl⟩ | ⟨call, rfl, rfl⟩
    | ⟨i, m, point, shared', point', rfl, hi, hmoved, rfl⟩ := step_eq_some hstep
  · constructor
    · apply howned
    · apply h.sound
    · intro lease hlease
      obtain ⟨hlive, hexpires⟩ := h.lease lease hlease
      use hundisturbed lease hlease hlive
      apply hexpires.trans (Nat.add_le_add_right (Nat.le_add_right _ _) _)
    · intro hstarted hpending
      obtain hruns | ⟨i, point, hi, hawaits⟩ := h.attends hstarted hpending
      · left
        apply hruns
      · right
        use i, point, hi
        apply hawaits.mono
        · intro lease hmem
          apply hmem
        · apply id
        · intro hfree
          constructor
          · apply Bool.eq_false_iff.mpr
            intro hlive
            obtain ⟨lease, hlease, -⟩ := LockState.isLive_iff.mp hlive
            apply Bool.eq_false_iff.mp hfree
            apply LockState.isLive_iff.mpr
            use lease, hlease
            apply (h.lease lease hlease).1
          · rfl
  · constructor
    · apply howned
    · intro i point hi
      obtain hi | ⟨-, rfl⟩ := Threads.getElem?_start_eq_some.mp hi
      · apply h.sound i point hi
      · cases call with
        | deliver payload reopenIfComplete =>
            apply Point.sound_of_none rfl rfl
            · apply Bool.not_eq_eq_eq_not.mp hreopens
            · nofun
        | startSession =>
            apply Point.sound_of_none rfl rfl rfl
            rintro _ ⟨⟩
            apply Nat.le_refl
        | _ =>
            apply Point.sound_of_none rfl rfl rfl
            nofun
    · apply h.lease
    · intro hstarted hpending
      obtain ⟨i, run, hi, hstage⟩ | ⟨i, point, hi, hawaits⟩ := h.attends hstarted hpending
      · left
        use i, run
        constructor
        · apply runs_start.mpr hi
        · apply hstage
      · right
        use i, point
        constructor
        · apply Threads.getElem?_start_eq_some.mpr
          left
          apply hi
        · apply hawaits
  · constructor
    · apply howned
    · apply Threads.forall_set (Q := Point.Sound shared'.inbox) hi h.sound
      · apply (h.sound i point hi).moved hmoved
        · apply hgaps point (List.mem_of_getElem? hi)
        · intro run hrun
          apply h.owned.held i run
          apply runOf_eq_some.mp
          rw [runOf, hi]
          apply hrun
        · apply hunfailing
      · intro j other _ _ hsound
        apply hsound.grows hmoved.grows
    · apply h.lease_moved httl hmoved
    · apply h.attends_moved hrecheck hi hmoved hundisturbed hparks hdrained

omit [DecidableEq K] in
/-- A session nothing has happened to is attended. -/
theorem attended_initial :
  Attended flow (initial K)
  := by
  constructor
  · constructor
    · apply wf_of_no_runs not_runs_initial
      nofun
    · intro i run hruns
      exact absurd hruns (not_runs_initial i run)
    · nofun
  · nofun
  · nofun
  · intro hstarted
    exact absurd rfl hstarted

omit [DecidableEq K] in
/-- While a session is attended and something is pending, some call is outstanding. -/
theorem Attended.outstanding {s : State K} (h : Attended flow s) (hstarted : Started s)
    (hpending : s.shared.inbox.messages ≠ []) :
  ∃ point ∈ s.points, point.outstanding = true
  := by
  obtain ⟨i, run, ⟨spawn, hi⟩, hstage⟩ | ⟨i, point, hi, hawaits⟩ := h.attends hstarted hpending
  · have hsound := h.sound i _ hi
    obtain ⟨hsuperseded, hfailed⟩ := hsound.ended run rfl
    have hrespawns := hsound.respawns_lt spawn run rfl
    use .running spawn run, List.mem_of_getElem? hi
    rw [Point.outstanding]
    split
    · apply decide_eq_true hrespawns
    · apply decide_eq_true hrespawns
    · rename_i status hcompleted hrelease
      cases status with
      | completed => exact absurd rfl hcompleted
      | parked => exact absurd hrelease hstage
      | superseded => exact absurd hrelease hsuperseded
      | failed => exact absurd hrelease hfailed
    · rfl
  · use point, List.mem_of_getElem? hi
    cases point with
    | append => rfl
    | running => cases hawaits
    | returned => cases hawaits
    | _ => rfl

/-- No delivery is lost: in a run without crashes, in which no delivery finds the session complete
while a run parks, and no run parks while an entry is pending, some call is outstanding in every
state of a started session in which an entry is pending. -/
theorem no_lost_delivery {s : State K} {actions : List (Action K)} (httl : 0 < flow.ttl)
    (hrecheck : flow.ttl ≤ flow.redeliveryRecheck)
    (hregular : Always (step flow) (Regular flow) (initial K) actions)
    (hparks : Always (step flow) (fun s action => action.findsParking s = false) (initial K) actions)
    (hdrained : Always (step flow) (fun s action => action.parksPending s = false) (initial K)
      actions)
    (hrun : TransitionSystem.run (step flow) (initial K) actions = some s)
    (hstarted : Started s) (hpending : s.shared.inbox.messages ≠ []) :
  ∃ point ∈ s.points, point.outstanding = true
  := by
  have hattended : Attended flow s := by
    apply TransitionSystem.run_invariant_of_always _ attended_initial
      (TransitionSystem.always_and hregular (TransitionSystem.always_and hparks hdrained)) hrun
    intro t action t' ht ⟨hsteps, hfinds, hempty⟩ hnext
    apply ht.step httl hrecheck hsteps hfinds hempty hnext
  apply hattended.outstanding hstarted hpending

instance (s : State K) : Decidable (Started s) :=
  inferInstanceAs (Decidable (s.shared.lock.currentEpoch ≠ 0))

instance (s : State K) : Decidable (GapsBounded s) :=
  inferInstanceAs (Decidable (∀ point ∈ s.points, ∀ spawn ∈ point.spawn?,
    spawn.gapLandings < maxBackstopRespawns))

instance (flow : Flow) (s : State K) (action : Action K) : Decidable (Regular flow s action) :=
  decidable_of_iff
    (Undisturbed s action ∧ action.fails flow s = false ∧ action.leavesComplete = false
      ∧ GapsBounded s)
    ⟨fun h => ⟨h.1, h.2.1, h.2.2.1, h.2.2.2⟩, fun h => ⟨h.1, h.2, h.3, h.4⟩⟩

/-! ### A delivery that finds a run that parks -/

/-- A flow that may park, without aggregators. -/
def parkingFlow : Flow := { reportFlow with aggregators := [], parkAfter := some 60 }

/-- A run parks; an entry lands before it has released the lock, and its delivery leaves a
recheck. -/
def parksThenDelivers : List (Action ℕ) :=
  [.invoke .startSession, .move 0 (.acquire []), .move 0 (.run .rehydrate), .move 0 (.run .park),
    .invoke (.deliver "late" true), .move 1 .append, .move 1 .test, .move 1 .test,
    .move 0 .release]

theorem no_lost_delivery_recheck :
  ∃ s, TransitionSystem.run (step parkingFlow) (initial ℕ) parksThenDelivers = some s
      ∧ Started s ∧ s.shared.inbox.messages ≠ []
      ∧ ∃ point ∈ s.points, point.outstanding = true
  := by
  refine ⟨_, rfl, ?_, ?_, ?_⟩
  · decide
  · decide
  · apply @no_lost_delivery ℕ _ parkingFlow _ parksThenDelivers
    · decide
    · decide
    · decide
    · decide
    · decide
    · rfl
    · decide
    · decide

/-- The session is started once. -/
def Action.starts : Action K → Bool
  | .invoke .startSession => true
  | _ => false

/-- A run that is about to mark the session complete. -/
def aboutToComplete (i : ℕ) : List (Action ℕ) :=
  [.move i (.acquire []), .move i (.run .rehydrate), .move i (.run .aggregate),
    .move i (.run .pendingCount)]

/-- It marks the session complete, and has drained the inbox. -/
def thenCompletes (i : ℕ) : List (Action ℕ) :=
  [.move i (.run .markComplete), .move i .release, .move i .probe]

/-- Two re-opens of a completed session: the second clears the flag before the first sets it again,
is granted the lock after that, and parks. -/
def parksComplete : List (Action ℕ) :=
  [.invoke .startSession] ++ aboutToComplete 0 ++ thenCompletes 0
    ++ [.invoke .reopen, .move 1 .test, .move 1 .test, .invoke .reopen, .move 2 .test,
      .move 2 .test, .move 1 .clearComplete]
    ++ aboutToComplete 1 ++ [.move 2 .clearComplete] ++ thenCompletes 1
    ++ [.move 2 (.acquire []), .move 2 (.run .rehydrate), .move 2 (.run .park)]

/-- A delivery finds the session complete and the lock held, and stands down; the run that parks
releases the lock. Nothing drains the entry. -/
theorem late_delivery_lost :
  ¬∀ (flow : Flow) (actions : List (Action ℕ)) (s : State ℕ), 0 < flow.ttl →
    flow.ttl ≤ flow.redeliveryRecheck →
    Always (step flow) (Regular flow) (initial ℕ) actions →
    actions.countP Action.starts = 1 →
    TransitionSystem.run (step flow) (initial ℕ) actions = some s →
    Started s → s.shared.inbox.messages ≠ [] →
    ∃ point ∈ s.points, point.outstanding = true
  := by
  intro h
  have houtstanding := h parkingFlow (parksComplete ++ [.invoke (.deliver "late" true),
    .move 3 .append, .move 3 .test, .move 3 .test, .move 3 .test, .move 2 .release]) _ (by decide)
    (by decide) (by decide) (by decide) rfl (by decide) (by decide)
  revert houtstanding
  decide

end Manager

end Orcastork
