import Orcastork.Ids

/-!
# The in-memory audit sink

`InMemoryAuditSink` keeps one append-only log for every session; the operations are given on
the log of the session they are called for.
-/

namespace Orcastork

/-- An entry of the audit log: the epoch it was written with, when, and what it says. -/
structure AuditLogEntry where
  epoch : Epoch
  timestamp : Timestamp
  kind : String
  detail : String
  deriving DecidableEq, Repr

/-- What the audit sink keeps for one session. -/
structure AuditState where
  committed : List AuditLogEntry
  maxEpoch : Epoch
  deriving DecidableEq, Repr

namespace AuditState

/-- The log of a session nothing was audited of. -/
def initial : AuditState := ⟨[], 0⟩

/-- `append`: the entry put last, unless its epoch is below the highest accepted one. -/
def append (state : AuditState) (entry : AuditLogEntry) :
    Except OrchestrationError AuditState :=
  if entry.epoch < state.maxEpoch then
    .error (.staleEpoch s!"epoch {entry.epoch} is stale (current {state.maxEpoch})")
  else
    .ok ⟨state.committed ++ [entry], entry.epoch⟩

/-- `append_many`: the entries appended one after another, up to the first that is rejected.
What was appended before it stays. -/
def appendMany : AuditState → List AuditLogEntry → Except OrchestrationError Unit × AuditState
  | state, [] => (.ok (), state)
  | state, entry :: entries =>
    match state.append entry with
    | .error error => (.error error, state)
    | .ok state => appendMany state entries

-- The equations are made here once for the proofs that rewrite with them.
attribute [grind =] append appendMany

/-- `replay`. -/
def replay (state : AuditState) : List AuditLogEntry := state.committed

/-- A batch is rejected by fencing only. -/
theorem isStaleEpoch_appendMany {state : AuditState} {entries : List AuditLogEntry}
    {error : OrchestrationError} (h : (state.appendMany entries).1 = .error error) :
  error.isStaleEpoch = true
  := by
  induction entries generalizing state with
  | nil => cases h
  | cons entry entries ih =>
      rw [appendMany, append] at h
      rcases Nat.lt_or_ge entry.epoch state.maxEpoch with hlt | hle
      · rw [if_pos hlt] at h
        cases h
        rfl
      · rw [if_neg (Nat.not_lt.mpr hle)] at h
        exact ih h

/-- A batch of one epoch below the highest accepted one changes nothing. -/
theorem appendMany_of_lt {state : AuditState} {entries : List AuditLogEntry} {epoch : Epoch}
    (h : epoch < state.maxEpoch) (hentries : ∀ entry ∈ entries, entry.epoch = epoch) :
  (state.appendMany entries).2 = state
  := by
  cases entries with
  | nil => rfl
  | cons entry entries =>
      have hepoch : entry.epoch < state.maxEpoch := by
        rw [hentries entry List.mem_cons_self]
        exact h
      rw [appendMany, append, if_pos hepoch]

/-- A batch of one epoch that is not below the highest accepted one is appended whole. -/
theorem appendMany_of_le {state : AuditState} {entries : List AuditLogEntry} {epoch : Epoch}
    (h : state.maxEpoch ≤ epoch) (hentries : ∀ entry ∈ entries, entry.epoch = epoch) :
  (state.appendMany entries).1 = .ok () ∧ (state.appendMany entries).2.maxEpoch ≤ epoch
  := by
  induction entries generalizing state with
  | nil => exact ⟨rfl, h⟩
  | cons entry entries ih =>
      obtain ⟨hentry, hentries⟩ := List.forall_mem_cons.mp hentries
      have hle : ¬entry.epoch < state.maxEpoch := by
        rw [hentry]
        apply Nat.not_lt.mpr h
      rw [appendMany, append, if_neg hle]
      apply ih (Nat.le_of_eq hentry) hentries

/-- A batch that is appended whole stands behind what was there. -/
theorem committed_appendMany {state : AuditState} {entries : List AuditLogEntry}
    (h : (state.appendMany entries).1 = .ok ()) :
  (state.appendMany entries).2.committed = state.committed ++ entries
  := by
  induction entries generalizing state with
  | nil => exact (List.append_nil _).symm
  | cons entry entries ih =>
      rw [appendMany, append] at h ⊢
      rcases Nat.lt_or_ge entry.epoch state.maxEpoch with hlt | hle
      · rw [if_pos hlt] at h
        cases h
      · rw [if_neg (Nat.not_lt.mpr hle)] at h ⊢
        simp only at h ⊢
        rw [ih h, List.append_assoc]
        rfl

/-- No batch lowers the highest accepted epoch. -/
theorem maxEpoch_appendMany (state : AuditState) (entries : List AuditLogEntry) :
  state.maxEpoch ≤ (state.appendMany entries).2.maxEpoch
  := by
  induction entries generalizing state with
  | nil => rfl
  | cons entry entries ih =>
      rw [appendMany, append]
      rcases Nat.lt_or_ge entry.epoch state.maxEpoch with hlt | hle
      · rw [if_pos hlt]
      · rw [if_neg (Nat.not_lt.mpr hle)]
        apply le_trans hle
        exact ih ⟨state.committed ++ [entry], entry.epoch⟩

end AuditState

end Orcastork
