import Mathlib.Algebra.BigOperators.Group.Finset.Basic
import Mathlib.Algebra.BigOperators.Group.Finset.Piecewise
import Mathlib.Algebra.Order.BigOperators.Group.Finset
import Mathlib.Data.Set.Finite.Basic
import Mathlib.Logic.Relation
import Mathlib.Order.WellFounded
import Mathlib.Tactic.Common

/-!
# Finite bounds

What keeps a sum over a list within a bound. What the elements with some keys add, summed over their
positions, is bounded by what the first, the second, and so on, with a key may add
(`sum_positions_le`). Along a relation without cycles on the elements of a list, what holds of an
element once it holds of all before it holds of every one (`acyclic_induction`).
-/

universe u

namespace FiniteBounds

variable {α : Type u}

/-- The positions of a list whose element has a property. -/
def positions (p : α → Bool) (l : List α) : Finset ℕ :=
  (Finset.range l.length).filter (fun i => (l[i]?).any p = true)

variable {p : α → Bool} {l : List α} {i : ℕ}

theorem mem_positions :
  i ∈ positions p l ↔ ∃ a, l[i]? = some a ∧ p a = true
  := by
  rw [positions, Finset.mem_filter, Finset.mem_range, Option.any_eq_true]
  constructor
  · exact And.right
  · rintro ⟨a, hget, ha⟩
    exact ⟨(List.getElem?_eq_some_iff.mp hget).1, a, hget, ha⟩

/-- One more element is one more position if it has the property. -/
theorem positions_concat (p : α → Bool) (l : List α) (a : α) :
  positions p (l ++ [a])
    = if p a = true then insert l.length (positions p l) else positions p l
  := by
  have hbefore : (Finset.range l.length).filter (fun i => ((l ++ [a])[i]?).any p = true)
      = positions p l := by
    apply Finset.filter_congr
    intro i hi
    rw [List.getElem?_append_left (Finset.mem_range.mp hi)]
  rw [positions, List.length_append, List.length_singleton, Finset.range_add_one,
    Finset.filter_insert, List.getElem?_concat_length, hbefore, Option.any_some]

theorem length_notMem_positions (p : α → Bool) (l : List α) :
  l.length ∉ positions p l
  := by
  intro hmem
  obtain ⟨b, hget, -⟩ := mem_positions.mp hmem
  rw [List.getElem?_length] at hget
  cases hget

section

variable {β : Type*} [DecidableEq β] {key : α → β} {keys : Finset β} {l : List α}

/-- What every element with one of some keys adds is bounded by what the first, the second, and so
on, with its key may add. -/
theorem sum_positions_le {f : ℕ → ℕ} {g : β → ℕ → ℕ}
    (hf : ∀ i a, l[i]? = some a → key a ∈ keys →
      f i ≤ g (key a) ((l.take i).countP (fun b => decide (key b = key a)))) :
  ∑ i ∈ positions (fun a => decide (key a ∈ keys)) l, f i
    ≤ ∑ b ∈ keys, ∑ k ∈ Finset.range (l.countP (fun a => decide (key a = b))), g b k
  := by
  induction l using List.reverseRecOn with
  | nil => apply Nat.zero_le
  | append_singleton l a ih =>
      have hrest := ih (by
        intro i b hget hkey
        have hlt := (List.getElem?_eq_some_iff.mp hget).1
        have hone := hf i b (by rw [List.getElem?_append_left hlt, hget]) hkey
        rw [List.take_append_of_le_length (Nat.le_of_lt hlt)] at hone
        apply hone)
      have hcount : ∀ b, ∑ k ∈ Finset.range ((l ++ [a]).countP (fun a => decide (key a = b))), g b k
          = ∑ k ∈ Finset.range (l.countP (fun a => decide (key a = b))), g b k
            + if key a = b then g b (l.countP (fun a => decide (key a = b))) else 0 := by
        intro b
        rw [List.countP_append, List.countP_singleton]
        by_cases hsame : key a = b
        · rw [if_pos (decide_eq_true hsame), if_pos hsame, Finset.sum_range_succ]
        · rw [if_neg (by rw [decide_eq_false hsame]; exact Bool.false_ne_true), if_neg hsame,
            Nat.add_zero, Nat.add_zero]
      rw [positions_concat, Finset.sum_congr rfl (fun b _ => hcount b), Finset.sum_add_distrib,
        Finset.sum_ite_eq]
      by_cases hkey : key a ∈ keys
      · have hlast := hf l.length a List.getElem?_concat_length hkey
        rw [List.take_left] at hlast
        rw [if_pos (decide_eq_true hkey), if_pos hkey,
          Finset.sum_insert (length_notMem_positions _ l), Nat.add_comm]
        apply Nat.add_le_add hrest hlast
      · rw [if_neg (by rw [decide_eq_false hkey]; exact Bool.false_ne_true), if_neg hkey,
          Nat.add_zero]
        apply hrest

/-- A list is as long as there are elements with each of some keys, where those are all its
keys. -/
theorem length_eq_sum_countP (hkeys : ∀ a ∈ l, key a ∈ keys) :
  l.length = ∑ b ∈ keys, l.countP (fun a => decide (key a = b))
  := by
  induction l with
  | nil =>
      symm
      apply Finset.sum_eq_zero
      intro b _
      rfl
  | cons a l ih =>
      obtain ⟨hkey, hkeys⟩ := List.forall_mem_cons.mp hkeys
      have hcount : ∀ b, (a :: l).countP (fun a => decide (key a = b))
          = l.countP (fun a => decide (key a = b)) + if key a = b then 1 else 0 := by
        intro b
        rw [List.countP_cons]
        congr 1
        simp only [decide_eq_true_eq]
      rw [List.length_cons, Finset.sum_congr rfl (fun b _ => hcount b), Finset.sum_add_distrib,
        Finset.sum_ite_eq, if_pos hkey, ← ih hkeys]

end

/-- Along a relation without cycles on the elements of a list, what holds of an element once it holds
of all before it holds of every one. -/
theorem acyclic_induction {r : α → α → Prop} {P : α → Prop} (l : List α)
    (hacyclic : ∀ a, ¬Relation.TransGen (fun a b => a ∈ l ∧ b ∈ l ∧ r a b) a a)
    (hstep : ∀ b ∈ l, (∀ a ∈ l, r a b → P a) → P b) :
  ∀ b ∈ l, P b
  := by
  let before : {a // a ∈ l} → {a // a ∈ l} → Prop :=
    Relation.TransGen (fun a b => r a.val b.val)
  have htrans : IsTrans {a // a ∈ l} before := ⟨fun _ _ _ => Relation.TransGen.trans⟩
  have hirrefl : Std.Irrefl before := by
    constructor
    intro a ha
    apply hacyclic a.val
    exact Relation.TransGen.lift (p := fun a b => a ∈ l ∧ b ∈ l ∧ r a b) Subtype.val
      (fun b c h => ⟨b.property, c.property, h⟩) a a ha
  have hfinite : Finite {a // a ∈ l} := (List.finite_toSet l).to_subtype
  have hwf : WellFounded before := Finite.wellFounded_of_trans_of_irrefl before
  have hall : ∀ b : {a // a ∈ l}, P b.val := by
    intro b
    induction b using hwf.induction with
    | _ b ih =>
        apply hstep b.val b.property
        intro a ha hab
        exact ih ⟨a, ha⟩ (.single hab)
  exact fun b hb => hall ⟨b, hb⟩

end FiniteBounds
