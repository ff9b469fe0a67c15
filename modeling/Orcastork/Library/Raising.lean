import Mathlib.Data.List.Forall2
import Mathlib.Tactic.Common

/-!
# Stateful operations that may raise

An operation takes a state to the next one and either returns or raises; what it had changed
when it raises stays changed. Operations follow one another (`andThen`) and run over the
elements of a list (`each`) up to the first that raises.

`Ensures` states what holds when an operation returns and what holds when it raises, with
one rule for each way of composing them. The rule for `each` is an invariant of the elements
done so far.
-/

universe u v w

/-- An operation on states `σ` that may raise an error `ε`. -/
abbrev Raising (ε : Type u) (σ : Type v) := σ → Except ε Unit × σ

namespace Raising

variable {ε : Type u} {σ : Type v} {α : Type w}

/-- The operation that does nothing. -/
def skip : Raising ε σ := fun s => (.ok (), s)

/-- One operation, and a second one unless the first raises. -/
def andThen (first second : Raising ε σ) : Raising ε σ := fun s =>
  match first s with
  | (.error error, s) => (.error error, s)
  | (.ok (), s) => second s

/-- An operation for each element of a list, up to the first that raises. -/
def each (op : α → Raising ε σ) : List α → Raising ε σ
  | [] => skip
  | a :: as => andThen (op a) (each op as)

/-- What has become of the state: `P` where the operation returned, `E` where it raised. -/
def Ensures (result : Except ε Unit × σ) (P : σ → Prop) (E : ε → σ → Prop) : Prop :=
  match result with
  | (.ok (), s) => P s
  | (.error error, s) => E error s

variable {P Q : σ → Prop} {E F : ε → σ → Prop} {result : Except ε Unit × σ}

@[simp]
theorem ensures_ok {s : σ} :
  Ensures ((.ok (), s) : Except ε Unit × σ) P E ↔ P s
  := Iff.rfl

@[simp]
theorem ensures_error {error : ε} {s : σ} :
  Ensures (.error error, s) P E ↔ E error s
  := Iff.rfl

theorem Ensures.mono (h : Ensures result P E) (hP : ∀ s, P s → Q s)
    (hE : ∀ error s, E error s → F error s) :
  Ensures result Q F
  := by
  obtain ⟨outcome, s⟩ := result
  cases outcome with
  | ok _ => apply hP s h
  | error error => apply hE error s h

/-- What holds of the state either way holds where the operation returned. -/
theorem Ensures.frame (h : Ensures result P E) (hQ : Q result.2) :
  Ensures result (fun s => P s ∧ Q s) E
  := by
  obtain ⟨outcome, s⟩ := result
  cases outcome with
  | ok _ => exact ⟨h, hQ⟩
  | error error => apply h

theorem Ensures.andThen {first second : Raising ε σ} {s : σ} (h : Ensures (first s) Q E)
    (hsecond : ∀ s', Q s' → Ensures (second s') P E) :
  Ensures (Raising.andThen first second s) P E
  := by
  rw [Raising.andThen]
  split
  · rename_i error s' hfirst
    rw [hfirst] at h
    apply h
  · rename_i s' hfirst
    rw [hfirst] at h
    apply hsecond s' h

/-- A loop keeps an invariant of the elements done so far, if one round does. -/
theorem Ensures.each {op : α → Raising ε σ} {P : List α → σ → Prop} {as : List α}
    (hround : ∀ done a rest s, as = done ++ a :: rest → P done s →
      Ensures (op a s) (P (done ++ [a])) E) {s : σ} (h : P [] s) :
  Ensures (Raising.each op as s) (P as) E
  := by
  suffices hfrom : ∀ rest done s, as = done ++ rest → P done s →
      Ensures (Raising.each op rest s) (P as) E by
    apply hfrom as [] s rfl h
  intro rest
  induction rest with
  | nil =>
      intro done s has hdone
      rw [List.append_nil] at has
      rw [has]
      apply hdone
  | cons a rest ih =>
      intro done s has hdone
      apply Ensures.andThen (hround done a rest s has hdone)
      intro s' hs'
      apply ih (done ++ [a]) s' _ hs'
      rw [has, List.append_assoc]
      rfl

/-! ### What is left as it is -/

universe x

variable {β : Type x} {read : σ → β}

/-- An operation leaves what is read off the state as it is, whether it returns or raises. -/
def Frames (op : Raising ε σ) (read : σ → β) : Prop := ∀ s, read (op s).2 = read s

theorem Frames.skip :
  Frames (Raising.skip : Raising ε σ) read
  := fun _ => rfl

theorem Frames.andThen {first second : Raising ε σ} (hfirst : Frames first read)
    (hsecond : Frames second read) :
  Frames (Raising.andThen first second) read
  := by
  intro s
  have hs := hfirst s
  rw [Raising.andThen]
  split
  · rename_i error s' hraises
    rw [hraises] at hs
    apply hs
  · rename_i s' hreturns
    rw [hreturns] at hs
    apply (hsecond s').trans hs

theorem Frames.each {op : α → Raising ε σ} (hop : ∀ a, Frames (op a) read) {as : List α} :
  Frames (Raising.each op as) read
  := by
  induction as with
  | nil => apply Frames.skip
  | cons a as ih => apply Frames.andThen (hop a) ih

/-! ### Two operations side by side -/

universe x' y

/-- Two outcomes: both returned, or both raised. -/
inductive Outcomes {ε' : Type x'} {α : Type w} {β : Type x} (E : ε → ε' → Prop)
    (R : α → β → Prop) : Except ε α → Except ε' β → Prop
  | ok {a b} (h : R a b) : Outcomes E R (.ok a) (.ok b)
  | error {e e'} (h : E e e') : Outcomes E R (.error e) (.error e')

theorem Outcomes.refl {outcome : Except ε α} :
  Outcomes (fun _ _ => True) Eq outcome outcome
  := by
  cases outcome with
  | ok _ => apply Outcomes.ok rfl
  | error _ => apply Outcomes.error trivial

variable {τ : Type y} {R : σ → τ → Prop}

/-- Two operations lead related states to related states, and both return or both raise, with
the same error. -/
def Alike (R : σ → τ → Prop) (op : Raising ε σ) (op' : Raising ε τ) : Prop :=
  ∀ s t, R s t → (op s).1 = (op' t).1 ∧ R (op s).2 (op' t).2

theorem Alike.skip :
  Alike R (Raising.skip : Raising ε σ) Raising.skip
  := fun _ _ h => ⟨rfl, h⟩

theorem Alike.andThen {first second : Raising ε σ} {first' second' : Raising ε τ}
    (hfirst : Alike R first first') (hsecond : Alike R second second') :
  Alike R (Raising.andThen first second) (Raising.andThen first' second')
  := by
  intro s t h
  obtain ⟨houtcome, hstate⟩ := hfirst s t h
  rw [Raising.andThen, Raising.andThen]
  cases hs : first s with
  | mk outcome s' =>
      cases ht : first' t with
      | mk outcome' t' =>
          rw [hs, ht] at houtcome hstate
          dsimp only at houtcome hstate
          rw [← houtcome]
          cases outcome with
          | error error => apply And.intro rfl hstate
          | ok _ => apply hsecond s' t' hstate

/-- A loop over related elements, if one round is alike for any two of them. -/
theorem Alike.each {op : α → Raising ε σ} {op' : β → Raising ε τ} {S : α → β → Prop}
    (hop : ∀ a b, S a b → Alike R (op a) (op' b)) {as : List α} {bs : List β}
    (h : List.Forall₂ S as bs) :
  Alike R (Raising.each op as) (Raising.each op' bs)
  := by
  induction h with
  | nil => apply Alike.skip
  | cons hab _ ih => apply Alike.andThen (hop _ _ hab) ih

end Raising
