import Mathlib.Data.List.Pairwise
import Mathlib.Data.List.Sublists
import Mathlib.Data.List.Perm.Subperm

/-!
# Elements that have a place in a list

Elements that name places of a list, in ascending order, and are what is there, make up a sublist;
if every place is named, they make up the list.
-/

universe u v

namespace Places

variable {α : Type u} {β : Type v} {place : α → ℕ} {value : α → β}

/-- Elements in the order of their places are a sublist of what is there. -/
theorem sublist_of_pairwise {elements : List α} {list : List β}
    (hsorted : elements.Pairwise (fun a b => place a < place b))
    (hthere : ∀ a ∈ elements, list[place a]? = some (value a)) :
  (elements.map value).Sublist list
  := by
  induction elements generalizing list place with
  | nil => apply List.nil_sublist
  | cons a elements ih =>
      obtain ⟨hfirst, hrest⟩ := List.pairwise_cons.mp hsorted
      obtain ⟨hlt, hvalue⟩ := List.getElem?_eq_some_iff.mp (hthere a List.mem_cons_self)
      have hbehind : (elements.map value).Sublist (list.drop (place a + 1)) := by
        -- the places behind the first are counted from there
        apply @ih (fun b => place b - (place a + 1))
        · apply hrest.imp_of_mem
          intro b c hb hc hbc
          have hab := hfirst b hb
          omega
        · intro b hb
          have hab := hfirst b hb
          rw [List.getElem?_drop, Nat.add_sub_cancel' hab]
          apply hthere b (List.mem_cons_of_mem _ hb)
      rw [List.map_cons, ← hvalue]
      have hdrop := hbehind.cons_cons list[place a]
      rw [← List.drop_eq_getElem_cons hlt] at hdrop
      apply hdrop.trans (List.drop_sublist _ _)

/-- Elements in the order of their places are the list, if they have every place in it. -/
theorem map_eq_of_places {elements : List α} {list : List β}
    (hsorted : elements.Pairwise (fun a b => place a < place b))
    (hthere : ∀ a ∈ elements, list[place a]? = some (value a))
    (hall : ∀ n < list.length, ∃ a ∈ elements, place a = n) :
  elements.map value = list
  := by
  apply (sublist_of_pairwise hsorted hthere).eq_of_length_le
  have hsubset : List.range list.length ⊆ elements.map place := by
    intro n hn
    obtain ⟨a, ha, hplace⟩ := hall n (List.mem_range.mp hn)
    apply List.mem_map.mpr ⟨a, ha, hplace⟩
  have hle := (List.nodup_range.subperm hsubset).length_le
  rw [List.length_range, List.length_map] at hle
  rw [List.length_map]
  apply hle

end Places
