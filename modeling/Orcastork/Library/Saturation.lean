import Mathlib.Data.Finset.Card
import Mathlib.Data.Finset.Image
import Mathlib.Tactic.Common

/-!
# Saturation loops

A loop that sweeps over a list of items again and again, until a sweep has added nothing.
Visiting an item gives the next state, or nothing if the item has nothing to add; what it adds
may also depend on the state at the start of the sweep.

If every visit that adds something collects an item that was not collected before, the loop
ends after at most one sweep more than there are items, in a state in which no item has
anything to add (`Collecting.saturated`). What every visit preserves holds of that state
(`saturate_invariant`).
-/

universe u v w

variable {State : Type u} {Item : Type v} {Key : Type w}

/-- One sweep: the items visited in order, and whether any of them added something. -/
def sweep (visit : State → Item → Option State) : List Item → State → State × Bool
  | [], s => (s, false)
  | item :: items, s =>
    match visit s item with
    | none => sweep visit items s
    | some s' => ((sweep visit items s').1, true)

/-- The loop, for a number of sweeps at most. A visit is given the state at the start of its
sweep and the present one. -/
def saturate (visit : State → State → Item → Option State) (items : List Item) :
    ℕ → State → State
  | 0, s => s
  | n + 1, s =>
    match sweep (visit s) items s with
    | (s', true) => saturate visit items n s'
    | (s', false) => s'

-- The equations are made here once for the proofs that rewrite with them.
attribute [grind =] sweep saturate

/-- Sweeps that always suffice for a loop that collects items: one more than there are. -/
def enoughSweeps (items : List Item) : ℕ := items.length + 1

/-! ### Sweeps -/

section Sweep

variable {visit : State → Item → Option State} {items : List Item} {s : State}

/-- A sweep that added nothing left the state alone, and no item has anything to add. -/
theorem sweep_of_false (h : (sweep visit items s).2 = false) :
  (sweep visit items s).1 = s ∧ ∀ item ∈ items, visit s item = none
  := by
  induction items generalizing s with
  | nil =>
      constructor
      · rfl
      · nofun
  | cons item items ih =>
      rw [sweep] at h ⊢
      cases hvisit : visit s item with
      | none =>
          rw [hvisit] at h
          obtain ⟨hsame, hnone⟩ := ih h
          apply And.intro hsame
          intro other hother
          obtain rfl | hother := List.mem_cons.mp hother
          · apply hvisit
          · apply hnone other hother
      | some s' =>
          rw [hvisit] at h
          cases h

/-- What every visit preserves a sweep preserves. -/
theorem sweep_invariant (inv : State → Prop)
    (hvisit : ∀ s item s', inv s → item ∈ items → visit s item = some s' → inv s')
    (hs : inv s) :
  inv (sweep visit items s).1
  := by
  induction items generalizing s with
  | nil => apply hs
  | cons item items ih =>
      have hrest : ∀ s other s', inv s → other ∈ items → visit s other = some s' → inv s' := by
        intro s other s' hs hother
        apply hvisit s other s' hs (List.mem_cons_of_mem _ hother)
      rw [sweep]
      split
      · apply ih hrest hs
      · rename_i s' hsome
        apply ih hrest
        apply hvisit s item s' hs List.mem_cons_self hsome

/-- A measure that every visit raises is raised by a sweep that added something. -/
theorem lt_sweep {measure : State → ℕ}
    (hvisit : ∀ s item s', visit s item = some s' → measure s < measure s')
    (h : (sweep visit items s).2 = true) :
  measure s < measure (sweep visit items s).1
  := by
  have hle : ∀ {items : List Item} {s : State}, measure s ≤ measure (sweep visit items s).1 := by
    intro items s
    apply sweep_invariant (fun s' => measure s ≤ measure s') _ le_rfl
    intro s₁ item s₂ hle _ hsome
    apply hle.trans (hvisit s₁ item s₂ hsome).le
  induction items generalizing s with
  | nil => cases h
  | cons item items ih =>
      rw [sweep] at h ⊢
      cases hsome : visit s item with
      | none =>
          rw [hsome] at h
          apply ih h
      | some s' => apply (hvisit s item s' hsome).trans_le hle

end Sweep

/-! ### The loop -/

section Loop

variable {visit : State → State → Item → Option State} {items : List Item} {s : State}

/-- What every visit preserves the loop preserves. -/
theorem saturate_invariant (inv : State → Prop)
    (hvisit : ∀ start s item s', inv start → inv s → item ∈ items →
      visit start s item = some s' → inv s')
    (n : ℕ) (hs : inv s) :
  inv (saturate visit items n s)
  := by
  induction n generalizing s with
  | zero => apply hs
  | succ n ih =>
      have hsweep : inv (sweep (visit s) items s).1 := by
        apply sweep_invariant inv _ hs
        intro s₁ item s₂
        apply hvisit s s₁ item s₂ hs
      rw [saturate]
      split
      · rename_i s' heq
        rw [heq] at hsweep
        apply ih hsweep
      · rename_i s' heq
        rw [heq] at hsweep
        apply hsweep

/-- With more sweeps than a bounded measure can rise, the loop ends saturated. -/
theorem saturated_of_measure (measure : State → ℕ) (inv : State → Prop) {bound : ℕ}
    (hinv : ∀ start s item s', inv start → inv s → item ∈ items →
      visit start s item = some s' → inv s')
    (hmeasure : ∀ start s item s', visit start s item = some s' → measure s < measure s')
    (hbound : ∀ s, inv s → measure s ≤ bound) {n : ℕ} (hs : inv s)
    (hn : bound < measure s + n) :
  ∀ item ∈ items, visit (saturate visit items n s) (saturate visit items n s) item = none
  := by
  induction n generalizing s with
  | zero =>
      have := hbound s hs
      omega
  | succ n ih =>
      rw [saturate]
      split
      · rename_i s' heq
        have hsweep : inv (sweep (visit s) items s).1 := by
          apply sweep_invariant inv _ hs
          intro s₁ item s₂
          apply hinv s s₁ item s₂ hs
        have hlt : measure s < measure (sweep (visit s) items s).1 := by
          apply lt_sweep
          · apply hmeasure
          · rw [heq]
        rw [heq] at hsweep hlt
        apply ih hsweep
        omega
      · rename_i s' heq
        have hfalse : (sweep (visit s) items s).2 = false := by rw [heq]
        obtain ⟨hsame, hnone⟩ := sweep_of_false hfalse
        rw [heq] at hsame
        obtain rfl : s' = s := hsame
        apply hnone

/-- A loop can be cut in two. -/
theorem saturate_add (n m : ℕ) (s : State) :
  saturate visit items (n + m) s = saturate visit items m (saturate visit items n s)
  := by
  induction n generalizing s with
  | zero => rw [Nat.zero_add, saturate]
  | succ n ih =>
      rw [Nat.succ_add, saturate, saturate]
      split
      · apply ih
      · rename_i s' heq
        -- A sweep that added nothing is the last one, also of the second loop.
        obtain ⟨hsame, -⟩ := sweep_of_false (congrArg Prod.snd heq)
        rw [heq] at hsame
        obtain rfl : s' = s := hsame
        cases m with
        | zero => rfl
        | succ m => rw [saturate, heq]

/-- A sweep over items that have nothing to add adds nothing. -/
theorem sweep_of_forall_none {visit : State → Item → Option State} {items : List Item} {s : State}
    (h : ∀ item ∈ items, visit s item = none) :
  sweep visit items s = (s, false)
  := by
  induction items with
  | nil => rfl
  | cons item items ih =>
      obtain ⟨hfirst, hrest⟩ := List.forall_mem_cons.mp h
      rw [sweep, hfirst]
      apply ih hrest

/-- The loop leaves alone a state in which no item has anything to add. -/
theorem saturate_of_saturated (n : ℕ) (h : ∀ item ∈ items, visit s s item = none) :
  saturate visit items n s = s
  := by
  cases n with
  | zero => rfl
  | succ n => rw [saturate, sweep_of_forall_none h]

end Loop

/-! ### Loops that collect their items -/

/-- Every visit that adds something collects the key of its item, which was not collected. -/
def Collecting [DecidableEq Key] (visit : State → State → Item → Option State)
    (key : Item → Key) (collected : State → Finset Key) : Prop :=
  ∀ start s item s', visit start s item = some s' →
    key item ∉ collected s ∧ collected s' = insert (key item) (collected s)

/-- A loop that collects its items ends saturated. -/
theorem Collecting.saturated [DecidableEq Key] {visit : State → State → Item → Option State}
    {key : Item → Key} {collected : State → Finset Key} (h : Collecting visit key collected)
    (items : List Item) {s : State} (hs : collected s = ∅) :
  ∀ item ∈ items, visit (saturate visit items (enoughSweeps items) s)
    (saturate visit items (enoughSweeps items) s) item = none
  := by
  apply saturated_of_measure (fun s => (collected s).card)
    (fun s => collected s ⊆ (items.map key).toFinset)
  · intro start s item s' _ hsub hitem hsome
    rw [(h start s item s' hsome).2]
    apply Finset.insert_subset _ hsub
    rw [List.mem_toFinset]
    apply List.mem_map_of_mem hitem
  · intro start s item s' hsome
    obtain ⟨hnew, hinsert⟩ := h start s item s' hsome
    rw [hinsert, Finset.card_insert_of_notMem hnew]
    apply Nat.lt_succ_self
  · intro s hsub
    apply (Finset.card_le_card hsub).trans
    apply (List.toFinset_card_le _).trans_eq
    apply List.length_map
  · rw [hs]
    apply Finset.empty_subset
  · rw [hs, Finset.card_empty, enoughSweeps]
    omega

/-- Sweeps past those that suffice change nothing. -/
theorem Collecting.saturate_of_le [DecidableEq Key] {visit : State → State → Item → Option State}
    {key : Item → Key} {collected : State → Finset Key} (h : Collecting visit key collected)
    (items : List Item) {s : State} (hs : collected s = ∅) {n : ℕ} (hn : enoughSweeps items ≤ n) :
  saturate visit items n s = saturate visit items (enoughSweeps items) s
  := by
  obtain ⟨m, rfl⟩ := Nat.exists_eq_add_of_le hn
  rw [saturate_add]
  apply saturate_of_saturated m (h.saturated items hs)
