import Orcastork.Ids
import Orcastork.Library.Dict
import Orcastork.Library.Interleaving
import Orcastork.Library.TransitionSystem

/-!
# The takeover guard

`_takeover_guard` serializes the callers of one session by a lock, and keeps one lock for each
session for as long as a caller holds or awaits it. A caller is counted into the entry of its
session before it awaits the lock, and counted out again when it leaves, however it leaves.

The callers are threads over the map of a manager. They give up control while they await the lock
and while they are inside; what one does in between is one step. The lock is assumed to be held by
one at a time: it is locked when it is acquired, and may then be acquired by any caller that awaits
it, a new one included.
-/

namespace Orcastork

/-- `_TakeoverGuardEntry`. -/
structure TakeoverGuardEntry where
  locked : Bool
  users : ℤ
  deriving DecidableEq, Repr

/-- The entries of a manager that were ever created, and the map of those that are kept, by where
they were created. -/
structure TakeoverLocks where
  entries : List TakeoverGuardEntry
  takeoverLocks : Dict SessionId ℕ

namespace TakeoverLocks

/-- The map of a new manager. -/
def initial : TakeoverLocks := ⟨[], .empty⟩

/-- An entry with a field set. -/
def modify (locks : TakeoverLocks) (entry : ℕ) (f : TakeoverGuardEntry → TakeoverGuardEntry) :
    TakeoverLocks :=
  { locks with entries := locks.entries.modify entry f }

/-- The entry of a session, created if there is none. -/
def find (locks : TakeoverLocks) (sessionId : SessionId) : TakeoverLocks × ℕ :=
  match locks.takeoverLocks.get? sessionId with
  | some entry => (locks, entry)
  | none =>
    let entry := locks.entries.length
    (⟨locks.entries ++ [⟨false, 0⟩], locks.takeoverLocks.set sessionId entry⟩, entry)

/-- The end of the guard: the caller is counted out, and the entry dropped if it was the last. -/
def leave (locks : TakeoverLocks) (sessionId : SessionId) (entry : ℕ) : TakeoverLocks :=
  let locks := locks.modify entry (fun entry => { entry with users := entry.users - 1 })
  if (locks.entries[entry]?).map TakeoverGuardEntry.users = some 0
      ∧ locks.takeoverLocks.get? sessionId = some entry then
    { locks with takeoverLocks := locks.takeoverLocks.erase sessionId }
  else locks

end TakeoverLocks

/-- Where a caller stands. -/
inductive TakeoverPoint where
  | waiting
  | inside
  | left
  deriving DecidableEq, Repr

/-- A caller of the guard, and the entry it is counted into. -/
structure TakeoverCaller where
  sessionId : SessionId
  entry : ℕ
  point : TakeoverPoint
  deriving DecidableEq, Repr

/-- How what is guarded ends. -/
inductive GuardedEnding where
  | returned
  | raised
  | cancelled
  deriving DecidableEq, Repr

/-- What a caller does next. -/
inductive TakeoverMove where
  | acquire
  /-- The caller is cancelled while it awaits the lock. -/
  | cancel
  | finish (ending : GuardedEnding)
  deriving DecidableEq, Repr

namespace TakeoverCaller

/-- The caller holds or awaits the lock of an entry. -/
def uses (entry : ℕ) (caller : TakeoverCaller) : Bool :=
  decide (caller.entry = entry ∧ caller.point ≠ .left)

/-- The caller holds the lock of an entry. -/
def holds (entry : ℕ) (caller : TakeoverCaller) : Bool :=
  decide (caller.entry = entry ∧ caller.point = .inside)

/-- The caller holds or awaits the lock of a session. -/
def guards (sessionId : SessionId) (caller : TakeoverCaller) : Bool :=
  decide (caller.sessionId = sessionId ∧ caller.point ≠ .left)

/-- The next move of a caller. The end of what is guarded releases the lock, whichever it is. -/
def move (locks : TakeoverLocks) (caller : TakeoverCaller) :
    TakeoverMove → Option (TakeoverLocks × TakeoverCaller)
  | .acquire =>
    if caller.point = .waiting
        ∧ (locks.entries[caller.entry]?).map TakeoverGuardEntry.locked = some false then
      some (locks.modify caller.entry (fun entry => { entry with locked := true }),
        { caller with point := .inside })
    else none
  | .cancel =>
    if caller.point = .waiting then
      some (locks.leave caller.sessionId caller.entry, { caller with point := .left })
    else none
  | .finish _ =>
    if caller.point = .inside then
      some ((locks.modify caller.entry (fun entry => { entry with locked := false })).leave
          caller.sessionId caller.entry,
        { caller with point := .left })
    else none

end TakeoverCaller

/-- What happens next: a caller enters the guard of a session, or one makes a move. -/
inductive TakeoverAction where
  | enter (sessionId : SessionId)
  | move (caller : ℕ) (move : TakeoverMove)
  deriving DecidableEq, Repr

/-- The manager's map and the callers of its guards. -/
def takeoverStep (threads : Threads TakeoverLocks TakeoverCaller) :
    TakeoverAction → Option (Threads TakeoverLocks TakeoverCaller)
  | .enter sessionId =>
    let (locks, entry) := threads.shared.find sessionId
    let locks := locks.modify entry (fun entry => { entry with users := entry.users + 1 })
    some ({ threads with shared := locks }.start ⟨sessionId, entry, .waiting⟩)
  | .move i move => threads.advance TakeoverCaller.move i move

/-! ### What the map keeps -/

/-- The entry of every caller that holds or awaits a lock is that of its session in the map, and
an entry counts its callers. -/
structure Guarding (threads : Threads TakeoverLocks TakeoverCaller) : Prop where
  kept : ∀ {i : ℕ} {caller}, threads.points[i]? = some caller → caller.point ≠ .left →
    threads.shared.takeoverLocks.get? caller.sessionId = some caller.entry
  apart : ∀ {sessionId sessionId' entry},
    threads.shared.takeoverLocks.get? sessionId = some entry →
    threads.shared.takeoverLocks.get? sessionId' = some entry → sessionId = sessionId'
  used : ∀ {sessionId address}, threads.shared.takeoverLocks.get? sessionId = some address →
    ∃ entry, threads.shared.entries[address]? = some entry ∧ 0 < entry.users
  counted : ∀ {address : ℕ} {entry}, threads.shared.entries[address]? = some entry →
    entry.users = (threads.points.countP (TakeoverCaller.uses address) : ℤ)
  locked : ∀ {address : ℕ} {entry}, threads.shared.entries[address]? = some entry →
    threads.points.countP (TakeoverCaller.holds address) = if entry.locked then 1 else 0

namespace TakeoverLocks

variable {locks : TakeoverLocks} {address : ℕ} {f : TakeoverGuardEntry → TakeoverGuardEntry}

/-- An entry whose field is set. -/
theorem getElem?_modify_self {entry : TakeoverGuardEntry}
    (h : locks.entries[address]? = some entry) :
  (locks.modify address f).entries[address]? = some (f entry)
  := by
  rw [modify, List.getElem?_modify_eq, h]
  rfl

/-- The other entries stay. -/
theorem getElem?_modify_of_ne {other : ℕ} (h : other ≠ address) :
  (locks.modify address f).entries[other]? = locks.entries[other]?
  := List.getElem?_modify_ne _ _ h.symm

/-- A caller that leaves is counted out of its entry. -/
theorem entries_leave (locks : TakeoverLocks) (sessionId : SessionId) (address : ℕ) :
  (locks.leave sessionId address).entries
    = (locks.modify address (fun entry => { entry with users := entry.users - 1 })).entries
  := by
  rw [leave]
  split
  · rfl
  · rfl

/-- The last caller that leaves drops the entry of its session. -/
theorem get?_leave {sessionId : SessionId} {entry : TakeoverGuardEntry}
    (hentry : locks.entries[address]? = some entry)
    (hget : locks.takeoverLocks.get? sessionId = some address) (other : SessionId) :
  (locks.leave sessionId address).takeoverLocks.get? other
    = if sessionId = other ∧ entry.users - 1 = 0 then none else locks.takeoverLocks.get? other
  := by
  have hlast : ((locks.modify address (fun entry => { entry with users := entry.users - 1 })
      ).entries[address]?).map TakeoverGuardEntry.users = some 0
      ∧ (locks.modify address (fun entry => { entry with users := entry.users - 1 })
      ).takeoverLocks.get? sessionId = some address
      ↔ entry.users - 1 = 0 := by
    rw [getElem?_modify_self hentry, modify, hget]
    simp
  by_cases hzero : entry.users - 1 = 0
  · rw [leave, if_pos (hlast.mpr hzero)]
    dsimp only
    rw [Dict.get?_erase]
    simp only [hzero, and_true]
    rfl
  · rw [leave, if_neg (hzero ∘ hlast.mp), if_neg (fun h => hzero h.2)]
    rfl

end TakeoverLocks

namespace Guarding

variable {threads : Threads TakeoverLocks TakeoverCaller}

theorem initial : Guarding ⟨.initial, []⟩
  := by
  constructor
  · intro i caller hi
    cases hi
  · intro sessionId sessionId' entry h
    cases h
  · intro sessionId address h
    cases h
  · intro address entry h
    cases h
  · intro address entry h
    cases h

/-- What `find` leaves: the entry of the session, known to it alone and with its callers counted,
and all others as they were. -/
theorem find (h : Guarding threads) (sessionId : SessionId) :
  ∃ entry, (threads.shared.find sessionId).1.entries[(threads.shared.find sessionId).2]? = some entry
    ∧ entry.users = (threads.points.countP
        (TakeoverCaller.uses (threads.shared.find sessionId).2) : ℤ)
    ∧ threads.points.countP (TakeoverCaller.holds (threads.shared.find sessionId).2)
      = (if entry.locked then 1 else 0)
    ∧ (∀ address, address ≠ (threads.shared.find sessionId).2 →
        (threads.shared.find sessionId).1.entries[address]? = threads.shared.entries[address]?)
    ∧ (threads.shared.find sessionId).1.takeoverLocks.get? sessionId
      = some (threads.shared.find sessionId).2
    ∧ (∀ other, other ≠ sessionId → (threads.shared.find sessionId).1.takeoverLocks.get? other
        = threads.shared.takeoverLocks.get? other)
    ∧ (∀ other, threads.shared.takeoverLocks.get? other = some (threads.shared.find sessionId).2 →
        other = sessionId)
    ∧ ∀ address, threads.shared.takeoverLocks.get? sessionId = some address →
        address = (threads.shared.find sessionId).2
  := by
  rw [TakeoverLocks.find]
  cases hget : threads.shared.takeoverLocks.get? sessionId with
  | some address =>
      obtain ⟨entry, hentry, -⟩ := h.used hget
      use entry, hentry, h.counted hentry, h.locked hentry
      refine ⟨fun _ _ => rfl, hget, fun _ _ => rfl, ?_, ?_⟩
      · intro other hother
        apply h.apart hother hget
      · intro address' haddress
        apply (Option.some.inj haddress).symm
  | none =>
      -- no caller is counted into an entry that was not there
      have hnone : ∀ {sessionId}, threads.shared.takeoverLocks.get? sessionId
          ≠ some threads.shared.entries.length := by
        intro sessionId hget
        obtain ⟨entry, hentry, -⟩ := h.used hget
        rw [List.getElem?_eq_none (Nat.le_refl _)] at hentry
        cases hentry
      have hfree : ∀ caller ∈ threads.points, caller.point ≠ .left →
          caller.entry ≠ threads.shared.entries.length := by
        intro caller hmem hpoint hentry
        obtain ⟨i, hi⟩ := List.mem_iff_getElem?.mp hmem
        apply hnone (hentry ▸ h.kept hi hpoint)
      refine ⟨⟨false, 0⟩, ?_, ?_, ?_, ?_, Dict.get?_set_self _ _ _, ?_, ?_, nofun⟩
      · dsimp only
        rw [List.getElem?_append_right (Nat.le_refl _), Nat.sub_self]
        rfl
      · symm
        rw [Int.natCast_eq_zero, List.countP_eq_zero]
        intro caller hmem
        rw [TakeoverCaller.uses, decide_eq_true_eq]
        rintro ⟨hentry, hpoint⟩
        apply hfree caller hmem hpoint hentry
      · dsimp only
        rw [if_neg nofun, List.countP_eq_zero]
        intro caller hmem
        rw [TakeoverCaller.holds, decide_eq_true_eq]
        rintro ⟨hentry, hpoint⟩
        apply hfree caller hmem (by rw [hpoint]; nofun) hentry
      · intro address hne
        dsimp only at hne ⊢
        rw [List.getElem?_append]
        split
        · rfl
        · rw [List.getElem?_eq_none (by simp; omega), List.getElem?_eq_none (by omega)]
      · intro other hne
        apply Dict.get?_set_of_ne _ hne.symm
      · intro other hother
        cases hnone hother

/-- A caller enters. -/
theorem enter (h : Guarding threads) {sessionId : SessionId}
    {threads' : Threads TakeoverLocks TakeoverCaller}
    (hstep : takeoverStep threads (.enter sessionId) = some threads') :
  Guarding threads'
  := by
  obtain ⟨entry, hentry, hcount, hlocked, hothers, hget, hmap, honly, hold⟩ :=
    h.find sessionId
  rw [takeoverStep] at hstep
  generalize hfind : threads.shared.find sessionId = found at *
  obtain ⟨locks, address⟩ := found
  cases hstep
  rw [Threads.start]
  dsimp only at *
  have hself : (locks.modify address (fun entry => { entry with users := entry.users + 1 })).entries[
      address]? = some { entry with users := entry.users + 1 } :=
    TakeoverLocks.getElem?_modify_self hentry
  have hother : ∀ other, other ≠ address →
      (locks.modify address (fun entry => { entry with users := entry.users + 1 })).entries[other]?
        = threads.shared.entries[other]? := by
    intro other hne
    rw [TakeoverLocks.getElem?_modify_of_ne hne, hothers other hne]
  have huses : ∀ other, (threads.points ++ [(⟨sessionId, address, .waiting⟩ : TakeoverCaller)]).countP
      (TakeoverCaller.uses other)
        = threads.points.countP (TakeoverCaller.uses other) + if address = other then 1 else 0 := by
    intro other
    rw [List.countP_append, List.countP_singleton, TakeoverCaller.uses]
    simp
  have hholds : ∀ other, (threads.points ++ [(⟨sessionId, address, .waiting⟩ : TakeoverCaller)]).countP
      (TakeoverCaller.holds other) = threads.points.countP (TakeoverCaller.holds other) := by
    intro other
    rw [List.countP_append, List.countP_singleton, TakeoverCaller.holds]
    simp
  constructor
  · intro i caller hi hpoint
    change locks.takeoverLocks.get? caller.sessionId = some caller.entry
    rcases Threads.getElem?_start_eq_some.mp hi with hi | ⟨-, rfl⟩
    · have hkept := h.kept hi hpoint
      by_cases hsame : caller.sessionId = sessionId
      · rw [hsame] at hkept ⊢
        rw [hold _ hkept]
        apply hget
      · rw [hmap _ hsame]
        apply hkept
    · apply hget
  · intro first second shared hfirst hsecond
    change locks.takeoverLocks.get? first = some shared at hfirst
    change locks.takeoverLocks.get? second = some shared at hsecond
    by_cases hsame : first = sessionId
    · subst hsame
      by_cases hsame' : second = first
      · apply hsame'.symm
      · rw [hmap _ hsame', ← Option.some.inj (hget.symm.trans hfirst)] at hsecond
        apply (honly _ hsecond).symm
    · rw [hmap _ hsame] at hfirst
      by_cases hsame' : second = sessionId
      · subst hsame'
        rw [← Option.some.inj (hget.symm.trans hsecond)] at hfirst
        apply honly _ hfirst
      · rw [hmap _ hsame'] at hsecond
        apply h.apart hfirst hsecond
  · intro known other hknown
    change locks.takeoverLocks.get? known = some other at hknown
    change ∃ entry', (locks.modify _ _).entries[other]? = some entry' ∧ 0 < entry'.users
    by_cases hsame : other = address
    · subst hsame
      use { entry with users := entry.users + 1 }, hself
      rw [hcount]
      apply Int.lt_add_one_of_le (Int.natCast_nonneg _)
    · rw [hother other hsame]
      rw [hmap] at hknown
      · apply h.used hknown
      · rintro rfl
        apply hsame (Option.some.inj (hknown.symm.trans hget))
  · intro other entry' hentry'
    change (locks.modify _ _).entries[other]? = some entry' at hentry'
    by_cases hsame : other = address
    · subst hsame
      rw [hself] at hentry'
      cases hentry'
      rw [huses, if_pos rfl]
      push_cast
      rw [← hcount]
    · rw [hother other hsame] at hentry'
      rw [huses, if_neg (Ne.symm hsame), Nat.add_zero]
      apply h.counted hentry'
  · intro other entry' hentry'
    change (locks.modify _ _).entries[other]? = some entry' at hentry'
    by_cases hsame : other = address
    · subst hsame
      rw [hself] at hentry'
      cases hentry'
      rw [hholds]
      apply hlocked
    · rw [hother other hsame] at hentry'
      rw [hholds]
      apply h.locked hentry'

/-- The counts of an entry after one of its callers has left. -/
theorem countP_left {points : List TakeoverCaller} {i : ℕ} {caller : TakeoverCaller}
    (hi : points[i]? = some caller) (hpoint : caller.point ≠ .left) (address : ℕ) :
  (points.set i { caller with point := .left }).countP (TakeoverCaller.uses address)
      + (if caller.entry = address then 1 else 0)
    = points.countP (TakeoverCaller.uses address)
  := by
  have hset := Threads.countP_set { caller with point := .left } (TakeoverCaller.uses address) hi
  simpa [TakeoverCaller.uses, hpoint] using hset

/-- A caller leaves the guard: its lock is as its end has left it, and all else as it was. -/
theorem leave (h : Guarding threads) {i : ℕ} {caller : TakeoverCaller}
    (hi : threads.points[i]? = some caller) (hpoint : caller.point ≠ .left) {locks : TakeoverLocks}
    (hlocks : locks.takeoverLocks = threads.shared.takeoverLocks)
    (hothers : ∀ address, address ≠ caller.entry →
      locks.entries[address]? = threads.shared.entries[address]?)
    {entry : TakeoverGuardEntry} (hentry : locks.entries[caller.entry]? = some entry)
    (husers : entry.users = (threads.points.countP (TakeoverCaller.uses caller.entry) : ℤ))
    (hlocked : (threads.points.set i { caller with point := .left }).countP
      (TakeoverCaller.holds caller.entry) = if entry.locked then 1 else 0) :
  Guarding ⟨locks.leave caller.sessionId caller.entry,
    threads.points.set i { caller with point := .left }⟩
  := by
  have hleft := countP_left hi hpoint
  have hget : locks.takeoverLocks.get? caller.sessionId = some caller.entry := by
    rw [hlocks]
    apply h.kept hi hpoint
  have hmap := TakeoverLocks.get?_leave hentry hget
  rw [hlocks] at hmap
  have hself : (locks.leave caller.sessionId caller.entry).entries[caller.entry]?
      = some { entry with users := entry.users - 1 } := by
    rw [TakeoverLocks.entries_leave, TakeoverLocks.getElem?_modify_self hentry]
  have hother : ∀ address, address ≠ caller.entry →
      (locks.leave caller.sessionId caller.entry).entries[address]?
        = threads.shared.entries[address]? := by
    intro address hne
    rw [TakeoverLocks.entries_leave, TakeoverLocks.getElem?_modify_of_ne hne, hothers address hne]
  have hcount : entry.users - 1 = ((threads.points.set i { caller with point := .left }).countP
      (TakeoverCaller.uses caller.entry) : ℤ) := by
    have hone := hleft caller.entry
    rw [if_pos rfl] at hone
    omega
  constructor
  · intro j other hj hactive
    dsimp only at hj ⊢
    obtain ⟨rfl, rfl⟩ | ⟨hne, hold⟩ := (Threads.getElem?_set_eq_some hi).mp hj
    · exact absurd rfl hactive
    · rw [hmap, h.kept hold hactive, if_neg]
      -- the entry still counts this caller
      rintro ⟨hsame, hlast⟩
      have hentry : caller.entry = other.entry := by
        have hkept := h.kept hold hactive
        rw [← hsame, h.kept hi hpoint] at hkept
        apply Option.some.inj hkept
      rw [hcount, Int.natCast_eq_zero, List.countP_eq_zero] at hlast
      apply hlast other (List.mem_of_getElem? hj)
      rw [TakeoverCaller.uses, decide_eq_true_eq]
      use hentry.symm, hactive
  · intro first second shared hfirst hsecond
    dsimp only at hfirst hsecond
    rw [hmap] at hfirst hsecond
    split at hfirst
    · cases hfirst
    · split at hsecond
      · cases hsecond
      · apply h.apart hfirst hsecond
  · intro known address hknown
    dsimp only at hknown ⊢
    rw [hmap] at hknown
    split at hknown
    · cases hknown
    · rename_i hkept
      by_cases hsame : address = caller.entry
      · subst hsame
        use { entry with users := entry.users - 1 }, hself
        have hmine := h.apart (h.kept hi hpoint) hknown
        have hne : entry.users - 1 ≠ 0 := fun hlast => hkept ⟨hmine, hlast⟩
        dsimp only
        omega
      · rw [hother address hsame]
        apply h.used hknown
  · intro address entry' hentry'
    dsimp only at hentry' ⊢
    by_cases hsame : address = caller.entry
    · subst hsame
      rw [hself] at hentry'
      cases hentry'
      apply hcount
    · rw [hother address hsame] at hentry'
      have hsame' := hleft address
      rw [if_neg (Ne.symm hsame), Nat.add_zero] at hsame'
      rw [hsame']
      apply h.counted hentry'
  · intro address entry' hentry'
    dsimp only at hentry' ⊢
    by_cases hsame : address = caller.entry
    · subst hsame
      rw [hself] at hentry'
      cases hentry'
      apply hlocked
    · rw [hother address hsame] at hentry'
      have hset := Threads.countP_set { caller with point := .left }
        (TakeoverCaller.holds address) hi
      rw [← h.locked hentry']
      simpa [TakeoverCaller.holds, Ne.symm hsame] using hset

/-- A caller acquires the lock of its entry. -/
theorem acquire (h : Guarding threads) {i : ℕ} {caller : TakeoverCaller}
    (hi : threads.points[i]? = some caller) (hwaiting : caller.point = .waiting)
    (hunlocked : (threads.shared.entries[caller.entry]?).map TakeoverGuardEntry.locked
      = some false) :
  Guarding ⟨threads.shared.modify caller.entry (fun entry => { entry with locked := true }),
    threads.points.set i { caller with point := .inside }⟩
  := by
  have hpoint : caller.point ≠ .left := by
    rw [hwaiting]
    nofun
  obtain ⟨entry, hentry, hfree⟩ := Option.map_eq_some_iff.mp hunlocked
  have huses : ∀ address, (threads.points.set i { caller with point := .inside }).countP
      (TakeoverCaller.uses address) = threads.points.countP (TakeoverCaller.uses address) := by
    intro address
    have hset := Threads.countP_set { caller with point := .inside } (TakeoverCaller.uses address) hi
    simpa [TakeoverCaller.uses, hwaiting] using hset
  have hholds : ∀ address, (threads.points.set i { caller with point := .inside }).countP
      (TakeoverCaller.holds address)
        = threads.points.countP (TakeoverCaller.holds address)
          + if caller.entry = address then 1 else 0 := by
    intro address
    have hset := Threads.countP_set { caller with point := .inside } (TakeoverCaller.holds address) hi
    simpa [TakeoverCaller.holds, hwaiting] using hset
  constructor
  · intro j other hj hactive
    rcases (Threads.getElem?_set_eq_some hi).mp hj with ⟨rfl, rfl⟩ | ⟨-, hj⟩
    · apply h.kept hi hpoint
    · apply h.kept hj hactive
  · intro first second shared hfirst hsecond
    apply h.apart hfirst hsecond
  · intro known address hknown
    obtain ⟨entry', hentry', hpos⟩ := h.used hknown
    by_cases hsame : address = caller.entry
    · subst hsame
      use { entry' with locked := true }, TakeoverLocks.getElem?_modify_self hentry'
    · use entry'
      rw [TakeoverLocks.getElem?_modify_of_ne hsame]
      use hentry'
  · intro address entry' hentry'
    rw [huses]
    by_cases hsame : address = caller.entry
    · subst hsame
      rw [TakeoverLocks.getElem?_modify_self hentry] at hentry'
      cases hentry'
      apply h.counted hentry
    · rw [TakeoverLocks.getElem?_modify_of_ne hsame] at hentry'
      apply h.counted hentry'
  · intro address entry' hentry'
    rw [hholds]
    by_cases hsame : address = caller.entry
    · subst hsame
      rw [TakeoverLocks.getElem?_modify_self hentry] at hentry'
      cases hentry'
      rw [h.locked hentry, hfree, if_pos rfl, if_pos rfl, if_neg nofun]
    · rw [TakeoverLocks.getElem?_modify_of_ne hsame] at hentry'
      rw [h.locked hentry', if_neg (Ne.symm hsame), Nat.add_zero]

/-- A move of a caller. -/
theorem move (h : Guarding threads) {i : ℕ} {m : TakeoverMove}
    {threads' : Threads TakeoverLocks TakeoverCaller}
    (hstep : takeoverStep threads (.move i m) = some threads') :
  Guarding threads'
  := by
  obtain ⟨caller, shared', caller', hi, hmove, rfl⟩ := Threads.advance_eq_some.mp hstep
  cases m with
  | acquire =>
      rw [TakeoverCaller.move] at hmove
      split at hmove
      · rename_i hfree
        obtain ⟨hwaiting, hunlocked⟩ := hfree
        cases hmove
        apply h.acquire hi hwaiting hunlocked
      · cases hmove
  | cancel =>
      rw [TakeoverCaller.move] at hmove
      split at hmove
      · rename_i hwaiting
        cases hmove
        have hpoint : caller.point ≠ .left := by
          rw [hwaiting]
          nofun
        obtain ⟨entry, hentry, -⟩ := h.used (h.kept hi hpoint)
        apply h.leave hi hpoint rfl (fun _ _ => rfl) hentry (h.counted hentry)
        have hset := Threads.countP_set { caller with point := .left }
          (TakeoverCaller.holds caller.entry) hi
        rw [← h.locked hentry]
        simpa [TakeoverCaller.holds, hwaiting] using hset
      · cases hmove
  | finish ending =>
      rw [TakeoverCaller.move] at hmove
      split at hmove
      · rename_i hinside
        cases hmove
        have hpoint : caller.point ≠ .left := by
          rw [hinside]
          nofun
        obtain ⟨entry, hentry, -⟩ := h.used (h.kept hi hpoint)
        have hothers : ∀ address, address ≠ caller.entry →
            (threads.shared.modify caller.entry (fun entry => { entry with locked := false })
              ).entries[address]? = threads.shared.entries[address]? := by
          intro address hne
          apply TakeoverLocks.getElem?_modify_of_ne hne
        have husers := h.counted hentry
        apply h.leave hi hpoint (by rfl) hothers (TakeoverLocks.getElem?_modify_self hentry) husers
        have hset := Threads.countP_set { caller with point := .left }
          (TakeoverCaller.holds caller.entry) hi
        have hlocked := h.locked hentry
        rw [if_neg nofun]
        simp only [TakeoverCaller.holds, hinside, and_self, decide_true, if_true, reduceCtorEq,
          and_false, decide_false, Bool.false_eq_true, if_false] at hset hlocked
        split at hlocked
        · omega
        · omega
      · cases hmove

/-- The map keeps its callers over every run. -/
theorem run {actions : List TakeoverAction}
    (hrun : TransitionSystem.run takeoverStep ⟨.initial, []⟩ actions = some threads) :
  Guarding threads
  := by
  apply TransitionSystem.run_invariant _ initial hrun
  intro threads action threads' h hstep
  cases action with
  | enter sessionId => apply h.enter hstep
  | move i m => apply h.move hstep

end Guarding

/-! ### What callers can rely on -/

/-- The guards of a manager exclude each other, and its map has the entries that are in use. -/
structure TakeoverExclusive (threads : Threads TakeoverLocks TakeoverCaller) : Prop where
  one_inside : ∀ {i j : ℕ} {caller other}, threads.points[i]? = some caller →
    threads.points[j]? = some other → caller.point = .inside → other.point = .inside →
    caller.sessionId = other.sessionId → i = j
  mapped_iff : ∀ sessionId, (threads.shared.takeoverLocks.get? sessionId).isSome
    ↔ ∃ caller ∈ threads.points, caller.guards sessionId = true
  /-- The entry of a session counts the callers that hold or await its lock. -/
  users : ∀ {sessionId address}, threads.shared.takeoverLocks.get? sessionId = some address →
    ∃ entry, threads.shared.entries[address]? = some entry
      ∧ entry.users = (threads.points.countP (TakeoverCaller.guards sessionId) : ℤ)
  one_lock : ∀ {caller other}, caller ∈ threads.points → other ∈ threads.points →
    caller.point ≠ .left → other.point ≠ .left → caller.sessionId = other.sessionId →
    caller.entry = other.entry
  /-- A lock is created for a caller that enters while none of its session holds or awaits one. -/
  created : ∀ {action threads'}, takeoverStep threads action = some threads' →
    threads'.shared.entries.length = threads.shared.entries.length
      ∨ ∃ sessionId, action = .enter sessionId
        ∧ ∀ caller ∈ threads.points, caller.guards sessionId = false

namespace Guarding

variable {threads : Threads TakeoverLocks TakeoverCaller}

theorem length_leave (locks : TakeoverLocks) (sessionId : SessionId) (address : ℕ) :
  (locks.leave sessionId address).entries.length = locks.entries.length
  := by
  rw [TakeoverLocks.entries_leave, TakeoverLocks.modify, List.length_modify]

/-- A caller that holds or awaits a lock uses the entry of its session. -/
theorem uses_eq_guards (h : Guarding threads) {sessionId : SessionId} {address : ℕ}
    (hget : threads.shared.takeoverLocks.get? sessionId = some address) {caller : TakeoverCaller}
    (hmem : caller ∈ threads.points) :
  caller.uses address = caller.guards sessionId
  := by
  obtain ⟨i, hi⟩ := List.mem_iff_getElem?.mp hmem
  rw [TakeoverCaller.uses, TakeoverCaller.guards, decide_eq_decide]
  constructor
  · rintro ⟨rfl, hpoint⟩
    use h.apart (h.kept hi hpoint) hget, hpoint
  · rintro ⟨rfl, hpoint⟩
    use Option.some.inj ((h.kept hi hpoint).symm.trans hget), hpoint

/-- A session without an entry has no caller that holds or awaits a lock. -/
theorem guards_eq_false (h : Guarding threads) {sessionId : SessionId}
    (hget : threads.shared.takeoverLocks.get? sessionId = none) {caller : TakeoverCaller}
    (hmem : caller ∈ threads.points) :
  caller.guards sessionId = false
  := by
  obtain ⟨i, hi⟩ := List.mem_iff_getElem?.mp hmem
  rw [TakeoverCaller.guards, decide_eq_false_iff_not]
  rintro ⟨rfl, hpoint⟩
  cases hget.symm.trans (h.kept hi hpoint)

theorem exclusive (h : Guarding threads) : TakeoverExclusive threads
  := by
  have hlock : ∀ {caller other}, caller ∈ threads.points → other ∈ threads.points →
      caller.point ≠ .left → other.point ≠ .left → caller.sessionId = other.sessionId →
      caller.entry = other.entry := by
    intro caller other hcaller hother hpoint hpoint' hsame
    obtain ⟨i, hi⟩ := List.mem_iff_getElem?.mp hcaller
    obtain ⟨j, hj⟩ := List.mem_iff_getElem?.mp hother
    have hget := h.kept hi hpoint
    rw [hsame, h.kept hj hpoint'] at hget
    apply (Option.some.inj hget).symm
  constructor
  · intro i j caller other hi hj hinside hinside' hsame
    have hpoint : caller.point ≠ .left := by
      rw [hinside]
      nofun
    have hpoint' : other.point ≠ .left := by
      rw [hinside']
      nofun
    have hentry := hlock (List.mem_of_getElem? hi) (List.mem_of_getElem? hj) hpoint hpoint' hsame
    obtain ⟨entry, hget, -⟩ := h.used (h.kept hi hpoint)
    have hone : threads.points.countP (TakeoverCaller.holds caller.entry) ≤ 1 := by
      rw [h.locked hget]
      split
      · apply Nat.le_refl
      · apply Nat.zero_le
    apply Threads.eq_of_countP_le_one hone hi hj
    · rw [TakeoverCaller.holds, decide_eq_true_eq]
      use rfl, hinside
    · rw [TakeoverCaller.holds, decide_eq_true_eq]
      use hentry.symm, hinside'
  · intro sessionId
    cases hget : threads.shared.takeoverLocks.get? sessionId with
    | none =>
        apply iff_of_false nofun
        rintro ⟨caller, hmem, hguards⟩
        cases hguards.symm.trans (h.guards_eq_false hget hmem)
    | some address =>
        apply iff_of_true rfl
        obtain ⟨entry, hentry, hpos⟩ := h.used hget
        rw [h.counted hentry, Int.natCast_pos, List.countP_pos_iff] at hpos
        obtain ⟨caller, hmem, huses⟩ := hpos
        use caller, hmem
        rw [← h.uses_eq_guards hget hmem, huses]
  · intro sessionId address hget
    obtain ⟨entry, hentry, -⟩ := h.used hget
    use entry, hentry
    rw [h.counted hentry]
    congr 1
    apply List.countP_congr
    intro caller hmem
    rw [h.uses_eq_guards hget hmem]
  · apply hlock
  · intro action threads' hstep
    cases action with
    | enter sessionId =>
        cases hget : threads.shared.takeoverLocks.get? sessionId with
        | none =>
            right
            use sessionId, rfl
            intro caller hmem
            apply h.guards_eq_false hget hmem
        | some address =>
            left
            rw [takeoverStep, TakeoverLocks.find, hget] at hstep
            cases hstep
            apply List.length_modify
    | move i m =>
        left
        obtain ⟨caller, shared', caller', -, hmove, rfl⟩ := Threads.advance_eq_some.mp hstep
        cases m with
        | acquire =>
            rw [TakeoverCaller.move] at hmove
            split at hmove
            · cases hmove
              apply List.length_modify
            · cases hmove
        | cancel =>
            rw [TakeoverCaller.move] at hmove
            split at hmove
            · cases hmove
              apply length_leave
            · cases hmove
        | finish ending =>
            rw [TakeoverCaller.move] at hmove
            split at hmove
            · cases hmove
              dsimp only
              rw [length_leave, TakeoverLocks.modify, List.length_modify]
            · cases hmove

end Guarding

/-- However the callers of a manager enter its guards, wait, are cancelled, fail and leave, at most
one is inside the guard of a session, and the session has an entry exactly while one of them holds
or awaits its lock. -/
theorem takeover_exclusive {actions : List TakeoverAction}
    {threads : Threads TakeoverLocks TakeoverCaller}
    (hrun : TransitionSystem.run takeoverStep ⟨.initial, []⟩ actions = some threads) :
  TakeoverExclusive threads
  := (Guarding.run hrun).exclusive

/-- A caller of `s` is queued when the first one fails; a third one enters and is cancelled. -/
def queuedCallers : List TakeoverAction :=
  [.enter "s", .move 0 .acquire, .enter "s", .enter "r", .move 0 (.finish .raised), .enter "s",
    .move 1 .acquire, .move 3 .cancel]

/-- The caller that was queued is inside. -/
theorem takeover_exclusive_queued :
  ∃ threads, TransitionSystem.run takeoverStep ⟨.initial, []⟩ queuedCallers = some threads
    ∧ (threads.points[1]?).map TakeoverCaller.point = some .inside
    ∧ TakeoverExclusive threads
  := by
  obtain ⟨threads, hrun⟩ : ∃ threads,
      TransitionSystem.run takeoverStep ⟨.initial, []⟩ queuedCallers = some threads := by
    apply Option.isSome_iff_exists.mp
    decide
  use threads, hrun
  constructor
  · have hpoint : (TransitionSystem.run takeoverStep ⟨.initial, []⟩ queuedCallers).map
        (fun threads => (threads.points[1]?).map TakeoverCaller.point) = some (some .inside) := by
      decide
    rw [hrun] at hpoint
    apply Option.some.inj hpoint
  · apply takeover_exclusive hrun

end Orcastork
