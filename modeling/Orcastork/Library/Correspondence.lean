import Mathlib.Data.List.Forall2
import Orcastork.Library.Dict

/-!
# Dictionaries that correspond

Two runs of a program that differ in some of the values they are given leave dictionaries that
differ in them. `Dict.Corresponds R S d e` says that the items of two dictionaries have, place by
place, keys related by `R` and values related by `S`. If the keys are related one to one, looking
up and setting related keys keeps the correspondence.
-/

universe u v w x

namespace Dict

variable {K : Type u} {L : Type v} {V : Type w} {W : Type x}
variable {R : K → L → Prop} {S : V → W → Prop}

/-- The items of two dictionaries are related, place by place. -/
def Corresponds (R : K → L → Prop) (S : V → W → Prop) (d : Dict K V) (e : Dict L W) : Prop :=
  List.Forall₂ (fun p q => R p.1 q.1 ∧ S p.2 q.2) d.items e.items

theorem corresponds_empty :
  Corresponds R S .empty .empty
  := List.Forall₂.nil

namespace Corresponds

variable {d : Dict K V} {e : Dict L W}

theorem values (h : Corresponds R S d e) :
  List.Forall₂ S d.values e.values
  := by
  apply List.forall₂_map_left_iff.mpr
  apply List.forall₂_map_right_iff.mpr
  apply h.imp
  intro p q hpq
  apply hpq.2

/-- A loop over the items of both keeps a relation of what it builds, if one round does. -/
theorem foldl {A : Type*} {B : Type*} {P : A → B → Prop} {step : A → K × V → A}
    {step' : B → L × W → B} (h : Corresponds R S d e)
    (hstep : ∀ a b p q, P a b → R p.1 q.1 → S p.2 q.2 → P (step a p) (step' b q)) {a : A} {b : B}
    (hab : P a b) :
  P (d.items.foldl step a) (e.items.foldl step' b)
  := by
  have hround : ∀ {items : List (K × V)} {items' : List (L × W)} {a : A} {b : B},
      List.Forall₂ (fun p q => R p.1 q.1 ∧ S p.2 q.2) items items' → P a b →
      P (items.foldl step a) (items'.foldl step' b) := by
    intro items items' a b hitems hab
    induction hitems generalizing a b with
    | nil => apply hab
    | cons hpq _ ih =>
        apply ih
        apply hstep _ _ _ _ hab hpq.1 hpq.2
  apply hround h hab

variable [DecidableEq K] [DecidableEq L] {k : K} {l : L} {v : V} {w : W}

private theorem lookup (hone : Relator.BiUnique R) (hkey : R k l) {items : List (K × V)}
    {items' : List (L × W)}
    (h : List.Forall₂ (fun p q => R p.1 q.1 ∧ S p.2 q.2) items items') :
  Option.Rel S (Dict.lookup k items) (Dict.lookup l items')
  := by
  induction h with
  | nil => apply Option.Rel.none
  | @cons p q _ _ hpq _ ih =>
      obtain ⟨k', v⟩ := p
      obtain ⟨l', w⟩ := q
      have hsame : k' = k ↔ l' = l := Relator.rel_eq hone hpq.1 hkey
      rw [Dict.lookup, Dict.lookup]
      by_cases hk : k' = k
      · rw [if_pos hk, if_pos (hsame.mp hk)]
        apply Option.Rel.some hpq.2
      · rw [if_neg hk, if_neg (hk ∘ hsame.mpr)]
        apply ih

/-- Related keys have related values, or both none. -/
theorem get? (hone : Relator.BiUnique R) (h : Corresponds R S d e) (hkey : R k l) :
  Option.Rel S (d.get? k) (e.get? l)
  := lookup hone hkey h

private theorem setItem (hone : Relator.BiUnique R) (hkey : R k l) (hvalue : S v w)
    {items : List (K × V)} {items' : List (L × W)}
    (h : List.Forall₂ (fun p q => R p.1 q.1 ∧ S p.2 q.2) items items') :
  List.Forall₂ (fun p q => R p.1 q.1 ∧ S p.2 q.2) (Dict.setItem k v items)
    (Dict.setItem l w items')
  := by
  induction h with
  | nil => apply List.Forall₂.cons ⟨hkey, hvalue⟩ List.Forall₂.nil
  | @cons p q _ _ hpq hrest ih =>
      obtain ⟨k', v'⟩ := p
      obtain ⟨l', w'⟩ := q
      have hsame : k' = k ↔ l' = l := Relator.rel_eq hone hpq.1 hkey
      rw [Dict.setItem, Dict.setItem]
      by_cases hk : k' = k
      · rw [if_pos hk, if_pos (hsame.mp hk)]
        apply List.Forall₂.cons ⟨hkey, hvalue⟩ hrest
      · rw [if_neg hk, if_neg (hk ∘ hsame.mpr)]
        constructor
        · apply hpq
        · apply ih

/-- Related keys may be set to related values. -/
theorem set (hone : Relator.BiUnique R) (h : Corresponds R S d e) (hkey : R k l)
    (hvalue : S v w) :
  Corresponds R S (d.set k v) (e.set l w)
  := setItem hone hkey hvalue h

/-- Related items may be set one after another. -/
theorem update (hone : Relator.BiUnique R) {d : Dict K V} {e : Dict L W} (h : Corresponds R S d e)
    {items : List (K × V)} {items' : List (L × W)}
    (hitems : List.Forall₂ (fun p q => R p.1 q.1 ∧ S p.2 q.2) items items') :
  Corresponds R S (d.update items) (e.update items')
  := by
  rw [Dict.update, Dict.update]
  induction hitems generalizing d e with
  | nil => apply h
  | cons hpq _ ih =>
      rw [mergeWith_cons, mergeWith_cons]
      apply ih
      apply h.set hone hpq.1 hpq.2

end Corresponds

end Dict
