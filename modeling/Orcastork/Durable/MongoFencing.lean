import Orcastork.Adapters.Mongo.DurableStore
import Orcastork.Library.TransitionSystem

/-!
# Fencing of interleaved Mongo calls

Any number of calls of any epochs make their operations in any order. The guard of a scope
keeps every call out that begins it after a higher epoch was accepted there. It does not
keep out a call whose guard was accepted before: between the guard and the write lies a
window, and a mutation of a higher epoch that falls into it is overwritten or joined.

That window is all there is to it. In every run, the steps of superseded calls leave the
records alone exactly when no effective write is made after a higher epoch's mutation in
the writer's own window (`superseded_inert_iff`).
-/

namespace Orcastork

namespace MongoDurableStore

/-- The database, the calls on their way, and the mutations applied so far, in order: the
scope of each and the epoch of its call. -/
structure World where
  database : Database
  writers : ℕ → Option Writer
  applied : List (RecordId × Epoch)

/-- What can happen: a call begins under a fresh number, or one makes its next operation. -/
inductive Action where
  | begin (writer : ℕ) (epoch : Epoch) (call : Call)
  | operate (writer : ℕ)

/-- An empty database and no calls. -/
def initial : World := ⟨.initial, fun _ => none, []⟩

/-- When a call passed its guard, if its next operation is made after `now` mutations. -/
def Writer.guardedAtAfter (writer : Writer) (now : ℕ) : ℕ :=
  match writer.stage with
  | .guard => now
  | _ => writer.guardedAt

/-- A call after its next operation. -/
def World.advance (world : World) (number : ℕ) (writer : Writer) : World :=
  let (database, stage, applied) := operate world.database writer.epoch writer.call writer.stage
  { database := database
    writers := Function.update world.writers number
      (some { writer with
        stage := stage
        guardedAt := writer.guardedAtAfter world.applied.length })
    applied :=
      if applied then world.applied ++ [(writer.call.scope, writer.epoch)] else world.applied }

/-- One action. -/
def step (world : World) : Action → Option World
  | .begin number epoch call =>
    match world.writers number with
    | none =>
      some { world with
        writers := Function.update world.writers number (some ⟨epoch, call, .guard, 0⟩) }
    | some _ => none
  | .operate number =>
    match world.writers number with
    | none => none
    | some writer => some (world.advance number writer)

/-! ### Superseded calls -/

/-- A higher epoch has applied a mutation in the scope of a call. -/
def World.Superseded (world : World) (writer : Writer) : Prop :=
  ∃ epoch, (writer.call.scope, epoch) ∈ world.applied ∧ writer.epoch < epoch

/-- A higher epoch has applied a mutation in the scope of a call since the call's own guard
was accepted. -/
def World.Overtaken (world : World) (writer : Writer) : Prop :=
  ∃ epoch, (writer.call.scope, epoch) ∈ world.applied.drop writer.guardedAt
    ∧ writer.epoch < epoch

/-- An operation of a superseded call leaves the records alone. -/
def SupersededInert (world : World) (action : Action) : Prop :=
  ∀ number writer world', action = .operate number → world.writers number = some writer →
    world.Superseded writer → step world action = some world' →
    world'.database.data = world.database.data

/-- No effective write is made by a call that was overtaken in its window. -/
def NoLateWrite (world : World) (action : Action) : Prop :=
  ∀ number writer, action = .operate number → world.writers number = some writer →
    Effective world.database writer.stage writer.call → ¬world.Overtaken writer

/-! ### What the guards keep -/

/-- What a call past its guard knows: its epoch was accepted, and no mutation applied in its
scope before its guard had a higher one. -/
structure Guarded (world : World) (writer : Writer) : Prop where
  guardedAt_le : writer.guardedAt ≤ world.applied.length
  accepted : writer.epoch ≤ world.database.fence writer.call.scope
  before : ∀ epoch, (writer.call.scope, epoch) ∈ world.applied.take writer.guardedAt →
    epoch ≤ writer.epoch

/-- Every mutation applied was accepted by its fence, and every call past its guard is
guarded. -/
structure Fenced (world : World) : Prop where
  applied_le : ∀ scope epoch, (scope, epoch) ∈ world.applied → epoch ≤ world.database.fence scope
  guarded : ∀ number writer, world.writers number = some writer →
    writer.stage.pastGuard = true → Guarded world writer

theorem fenced_initial :
  Fenced initial
  := by
  constructor
  · intro scope epoch h
    cases h
  · intro number writer h
    cases h

/-- A guarded call stays guarded while fences rise and mutations are added. -/
theorem Guarded.mono {world world' : World} {writer : Writer} (h : Guarded world writer)
    {added : List (RecordId × Epoch)} (happlied : world'.applied = world.applied ++ added)
    (hfence : ∀ scope, world.database.fence scope ≤ world'.database.fence scope) :
  Guarded world' writer
  := by
  constructor
  · rw [happlied, List.length_append]
    exact h.guardedAt_le.trans (Nat.le_add_right _ _)
  · exact h.accepted.trans (hfence _)
  · intro epoch hmem
    rw [happlied, List.take_append_of_le_length h.guardedAt_le] at hmem
    exact h.before epoch hmem

/-- In a fenced world a call past its guard is superseded exactly when it was overtaken. -/
theorem superseded_iff_overtaken {world : World} {writer : Writer} (h : Guarded world writer) :
  world.Superseded writer ↔ world.Overtaken writer
  := by
  constructor
  · rintro ⟨epoch, hmem, hlt⟩
    rw [← List.take_append_drop writer.guardedAt world.applied] at hmem
    rcases List.mem_append.mp hmem with hmem | hmem
    · exact absurd (h.before epoch hmem) (Nat.not_le.mpr hlt)
    · exact ⟨epoch, hmem, hlt⟩
  · rintro ⟨epoch, hmem, hlt⟩
    exact ⟨epoch, List.mem_of_mem_drop hmem, hlt⟩

/-- Where the number of a call is given to `writer`, the other calls are as they were. -/
theorem update_writers {writers : ℕ → Option Writer} {number other : ℕ}
    {writer found : Writer}
    (h : Function.update writers number (some writer) other = some found) :
  (other = number ∧ found = writer) ∨ writers other = some found
  := by
  by_cases hother : other = number
  · subst hother
    rw [Function.update_self, Option.some.injEq] at h
    exact Or.inl ⟨rfl, h.symm⟩
  · rw [Function.update_of_ne hother] at h
    exact Or.inr h

theorem fenced_begin {world : World} (h : Fenced world) {number : ℕ} {epoch : Epoch}
    {call : Call} {world' : World} (hstep : step world (.begin number epoch call) = some world') :
  Fenced world'
  := by
  simp only [step] at hstep
  split at hstep
  · cases hstep
    constructor
    · exact h.applied_le
    · intro other writer hother hstage
      rcases update_writers hother with ⟨-, rfl⟩ | hother
      · cases hstage
      · exact (h.guarded other writer hother hstage).mono (List.append_nil _).symm
          (fun scope => le_refl _)
  · cases hstep

/-- A rejected guard changes nothing but its call. -/
theorem fenced_advance_rejected {world : World} (h : Fenced world) {number : ℕ}
    {writer : Writer} (hstage : writer.stage = .guard)
    (hlt : writer.epoch < world.database.fence writer.call.scope) :
  Fenced (world.advance number writer)
  := by
  simp only [World.advance, Writer.guardedAtAfter, hstage, operate_guard_of_lt hlt]
  constructor
  · exact h.applied_le
  · intro other found hother hpast
    rcases update_writers hother with ⟨-, rfl⟩ | hother
    · cases hpast
    · exact (h.guarded other found hother hpast).mono (List.append_nil _).symm
        (fun scope => le_refl _)

/-- An accepted guard raises the fence of its scope to its epoch, above every mutation
applied there. -/
theorem fenced_advance_accepted {world : World} (h : Fenced world) {number : ℕ}
    {writer : Writer} (hstage : writer.stage = .guard)
    (hle : world.database.fence writer.call.scope ≤ writer.epoch) :
  Fenced (world.advance number writer)
  := by
  have hfence : ∀ scope, world.database.fence scope
      ≤ Database.fence { world.database with
          fencing := world.database.fencing.set writer.call.scope writer.epoch } scope := by
    intro scope
    rw [fence_set]
    split
    · rename_i hscope
      rw [← hscope]
      exact hle
    · exact le_refl _
  simp only [World.advance, Writer.guardedAtAfter, hstage, operate_guard_of_le hle]
  constructor
  · intro scope epoch hmem
    exact (h.applied_le scope epoch hmem).trans (hfence scope)
  · intro other found hother hpast
    rcases update_writers hother with ⟨-, rfl⟩ | hother
    · constructor
      · exact le_refl _
      · change writer.epoch ≤ Database.fence _ _
        rw [fence_set, if_pos rfl]
      · intro epoch hmem
        exact (h.applied_le _ epoch (List.mem_of_mem_take hmem)).trans hle
    · exact (h.guarded other found hother hpast).mono (List.append_nil _).symm hfence

/-- The mutation an operation applies, if any, is one its fence had accepted. -/
theorem applied_advance {world : World} (h : Fenced world) {number : ℕ} {writer : Writer}
    (hwriter : world.writers number = some writer) :
  ∃ added, (∀ scope epoch, (scope, epoch) ∈ added → epoch ≤ world.database.fence scope)
    ∧ (world.advance number writer).applied = world.applied ++ added
  := by
  cases happlied : (operate world.database writer.epoch writer.call writer.stage).2.2 with
  | false =>
      refine ⟨[], fun _ _ hmem => absurd hmem List.not_mem_nil, ?_⟩
      simp only [World.advance, happlied, Bool.false_eq_true, if_false, List.append_nil]
  | true =>
      refine ⟨[(writer.call.scope, writer.epoch)], ?_, ?_⟩
      · intro scope epoch hmem
        cases List.mem_singleton.mp hmem
        exact (h.guarded number writer hwriter (pastGuard_of_applied happlied)).accepted
      · simp only [World.advance, happlied, if_true]

theorem guardedAtAfter_of_ne_guard {writer : Writer} (h : writer.stage ≠ .guard) (now : ℕ) :
  writer.guardedAtAfter now = writer.guardedAt
  := by
  unfold Writer.guardedAtAfter
  split
  · rename_i hguard
    exact absurd hguard h
  · rfl

/-- An operation after the guard moves no fence, and only a guarded call applies its
mutation. -/
theorem fenced_advance_past {world : World} (h : Fenced world) {number : ℕ} {writer : Writer}
    (hwriter : world.writers number = some writer) (hstage : writer.stage ≠ .guard) :
  Fenced (world.advance number writer)
  := by
  obtain ⟨hfencing, -⟩ :=
    operate_of_ne_guard world.database writer.epoch writer.call hstage
  obtain ⟨added, hadded, happlied⟩ := applied_advance h hwriter
  have hfence : ∀ scope, (world.advance number writer).database.fence scope
      = world.database.fence scope := by
    intro scope
    rw [Database.fence, World.advance, hfencing]
    rfl
  constructor
  · intro scope epoch hmem
    rw [happlied] at hmem
    rw [hfence]
    rcases List.mem_append.mp hmem with hmem | hmem
    · exact h.applied_le scope epoch hmem
    · exact hadded scope epoch hmem
  · intro other found hother hpast
    rcases update_writers hother with ⟨-, rfl⟩ | hother
    · have hguarded := h.guarded number writer hwriter (pastGuard_of_operate hstage hpast)
      have hmono := hguarded.mono happlied (fun scope => (hfence scope).ge)
      constructor
      · rw [guardedAtAfter_of_ne_guard hstage]
        exact hmono.guardedAt_le
      · exact hmono.accepted
      · rw [guardedAtAfter_of_ne_guard hstage]
        exact hmono.before
    · exact (h.guarded other found hother hpast).mono happlied (fun scope => (hfence scope).ge)

theorem fenced_advance {world : World} (h : Fenced world) {number : ℕ} {writer : Writer}
    (hwriter : world.writers number = some writer) :
  Fenced (world.advance number writer)
  := by
  by_cases hstage : writer.stage = .guard
  · rcases Nat.lt_or_ge writer.epoch (world.database.fence writer.call.scope) with hlt | hle
    · exact fenced_advance_rejected h hstage hlt
    · exact fenced_advance_accepted h hstage hle
  · exact fenced_advance_past h hwriter hstage

theorem fenced_step {world world' : World} {action : Action} (h : Fenced world)
    (hstep : step world action = some world') :
  Fenced world'
  := by
  cases action with
  | begin number epoch call => exact fenced_begin h hstep
  | operate number =>
      simp only [step] at hstep
      split at hstep
      · cases hstep
      · rename_i writer hwriter
        cases hstep
        exact fenced_advance h hwriter

/-! ### The window -/

/-- At a step in a fenced world, superseded calls leave the records alone exactly when no
overtaken call makes an effective write. -/
theorem supersededInert_iff {world : World} (h : Fenced world) (action : Action) :
  SupersededInert world action ↔ NoLateWrite world action
  := by
  constructor
  · intro hinert number writer haction hwriter heffective hovertaken
    have hguarded := h.guarded number writer hwriter (pastGuard_of_effective heffective)
    have hsuperseded := (superseded_iff_overtaken hguarded).mpr hovertaken
    apply operate_data_ne_iff.mpr heffective
    apply hinert number writer (world.advance number writer) haction hwriter hsuperseded
    rw [haction, step, hwriter]
  · intro hlate number writer world' haction hwriter hsuperseded hstep
    rw [haction, step, hwriter, Option.some.injEq] at hstep
    rw [← hstep]
    by_contra hchanged
    have heffective := operate_data_ne_iff.mp hchanged
    have hguarded := h.guarded number writer hwriter (pastGuard_of_effective heffective)
    apply hlate number writer haction hwriter heffective
    exact (superseded_iff_overtaken hguarded).mp hsuperseded

/-- In every run, the operations of superseded calls leave the records alone exactly when no
effective write is made by a call that a higher epoch overtook since its guard. -/
theorem superseded_inert_iff (actions : List Action) :
  TransitionSystem.Always step SupersededInert initial actions
    ↔ TransitionSystem.Always step NoLateWrite initial actions
  := TransitionSystem.always_iff (fun _ _ _ => fenced_step) (fun _ action h =>
    supersededInert_iff h action) fenced_initial

/-- A call of epoch `1` passes its guard; a call of epoch `2` passes the same guard and adds
to a set; then the first call writes. -/
def lateWriter : List Action :=
  [.begin 0 1 (.addToSet "profiles" "profile" "tags" "old"), .operate 0,
    .begin 1 2 (.addToSet "profiles" "profile" "sessions" "new"), .operate 1, .operate 1,
    .operate 0]

/-- The late write lands, though the higher epoch's mutation was applied before it. -/
theorem superseded_writer_lands :
  ¬TransitionSystem.Always step SupersededInert initial lateWriter
  := by
  intro h
  have hdata := h (lateWriter.take 5) (.operate 0) [] rfl _ rfl 0 _ _ rfl rfl
    ⟨2, by decide, by decide⟩ rfl
  have hkeys := congrArg Dict.keys hdata
  revert hkeys
  decide

end MongoDurableStore

end Orcastork
