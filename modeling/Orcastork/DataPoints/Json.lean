import Orcastork.DataPoints.Base
import Orcastork.Library.Paging
import Mathlib.Data.String.Basic

/-!
# JSON values

The JSON values a DataPoint can carry, and what the normalization makes of them: an object
becomes the tuple of its items in key order, so `makeHashable` does not see the order of the
keys, and nothing of a JSON value makes it raise (`makeHashable_toValue`).
-/

namespace Orcastork

/-- A JSON value. The items of an object are in insertion order. -/
inductive Json where
  | null
  | bool (value : Bool)
  | int (value : ℤ)
  | float (value : PyFloat)
  | str (value : String)
  | list (items : List Json)
  | object (items : List (String × Json))

namespace Json

/-- What holds of a JSON value if it holds of it whenever it does of the values in it. -/
@[elab_as_elim, induction_eliminator]
theorem induct {P : Json → Prop} (null : P null) (bool : ∀ value, P (bool value))
    (int : ∀ value, P (int value)) (float : ∀ value, P (float value))
    (str : ∀ value, P (str value)) (list : ∀ items, (∀ item ∈ items, P item) → P (list items))
    (object : ∀ items, (∀ item ∈ items, P item.2) → P (object items)) (json : Json) :
  P json
  :=
  match json with
  | .null => null
  | .bool value => bool value
  | .int value => int value
  | .float value => float value
  | .str value => str value
  | .list items => list items (fun item _ => induct null bool int float str list object item)
  | .object items =>
    object items (fun item _ => induct null bool int float str list object item.2)
termination_by sizeOf json
decreasing_by
  · rename_i hmem
    have hlt := List.sizeOf_lt_of_mem hmem
    simp only [Json.list.sizeOf_spec]
    omega
  · rename_i hmem
    have hlt := List.sizeOf_lt_of_mem hmem
    have hle : sizeOf item.2 < sizeOf item := by
      obtain ⟨key, value⟩ := item
      simp only [Prod.mk.sizeOf_spec]
      omega
    simp only [Json.object.sizeOf_spec]
    omega

/-- A JSON value as Python data. -/
def toValue : Json → Value
  | .null => .none
  | .bool value => .bool value
  | .int value => .int value
  | .float value => .float value
  | .str value => .str value
  | .list items => .list (each items)
  | .object items => .dict (eachItem items)
where
  each : List Json → List Value
    | [] => []
    | item :: items => toValue item :: each items
  eachItem : List (String × Json) → List (Hashed × Value)
    | [] => []
    | (key, value) :: items => (.str key, toValue value) :: eachItem items

/-- The objects of a JSON value have each key once. -/
def WellFormed : Json → Prop
  | .list items => each items
  | .object items => (items.map Prod.fst).Nodup ∧ eachItem items
  | _ => True
where
  each : List Json → Prop
    | [] => True
    | item :: items => WellFormed item ∧ each items
  eachItem : List (String × Json) → Prop
    | [] => True
    | (_, value) :: items => WellFormed value ∧ eachItem items

/-- A JSON value with the items of every object in key order. -/
def sortKeys : Json → Json
  | .null => .null
  | .bool value => .bool value
  | .int value => .int value
  | .float value => .float value
  | .str value => .str value
  | .list items => .list (each items)
  | .object items => .object (Paging.inOrder Prod.fst (eachItem items))
where
  each : List Json → List Json
    | [] => []
    | item :: items => sortKeys item :: each items
  eachItem : List (String × Json) → List (String × Json)
    | [] => []
    | (key, value) :: items => (key, sortKeys value) :: eachItem items

/-- The normalization of a JSON value whose objects are in key order. -/
def hash : Json → Hashed
  | .null => .none
  | .bool value => .bool value
  | .int value => .int value
  | .float value => .float value
  | .str value => .str value
  | .list items => each items
  | .object items => eachItem items
where
  each : List Json → Hashed
    | [] => .nil
    | item :: items => .cons (hash item) (each items)
  eachItem : List (String × Json) → Hashed
    | [] => .nil
    | (key, value) :: items => .cons (.tuple [.str key, hash value]) (eachItem items)

/-- The tuple of an item of an object. -/
def hashItem (item : String × Json) : Hashed := .tuple [.str item.1, hash item.2]

/-! ### The values in a list or an object -/

theorem toValue_each (items : List Json) :
  toValue.each items = items.map toValue
  := by
  induction items with
  | nil => rfl
  | cons item items ih => rw [toValue.each, ih, List.map_cons]

theorem toValue_eachItem (items : List (String × Json)) :
  toValue.eachItem items = items.map (fun item => (.str item.1, item.2.toValue))
  := by
  induction items with
  | nil => rfl
  | cons item items ih => rw [toValue.eachItem, ih, List.map_cons]

theorem wellFormed_each {items : List Json} :
  WellFormed.each items ↔ ∀ item ∈ items, item.WellFormed
  := by
  induction items with
  | nil => simp [WellFormed.each]
  | cons item items ih => rw [WellFormed.each, ih, List.forall_mem_cons]

theorem wellFormed_eachItem {items : List (String × Json)} :
  WellFormed.eachItem items ↔ ∀ item ∈ items, item.2.WellFormed
  := by
  induction items with
  | nil => simp [WellFormed.eachItem]
  | cons item items ih => rw [WellFormed.eachItem, ih, List.forall_mem_cons]

theorem sortKeys_each (items : List Json) :
  sortKeys.each items = items.map sortKeys
  := by
  induction items with
  | nil => rfl
  | cons item items ih => rw [sortKeys.each, ih, List.map_cons]

theorem sortKeys_eachItem (items : List (String × Json)) :
  sortKeys.eachItem items = items.map (fun item => (item.1, item.2.sortKeys))
  := by
  induction items with
  | nil => rfl
  | cons item items ih => rw [sortKeys.eachItem, ih, List.map_cons]

theorem hash_each (items : List Json) :
  hash.each items = .tuple (items.map hash)
  := by
  induction items with
  | nil => rfl
  | cons item items ih => rw [hash.each, ih, List.map_cons, Hashed.tuple]

theorem hash_eachItem (items : List (String × Json)) :
  hash.eachItem items = .tuple (items.map hashItem)
  := by
  induction items with
  | nil => rfl
  | cons item items ih => rw [hash.eachItem, ih, List.map_cons, ← hashItem, Hashed.tuple]

/-! ### Normalizing a JSON value -/

/-- The items of an object are compared by their keys, as these are distinct. -/
theorem lt_hashItem {item other : String × Json} (h : item.1 ≠ other.1) :
  (hashItem item).lt (hashItem other) = .ok (decide (item.1 < other.1))
  := by
  have hne : ¬(Hashed.str item.1).eqKey = (Hashed.str other.1).eqKey := by
    rw [Hashed.eqKey, Hashed.eqKey, EqKey.str.injEq]
    exact h
  simp only [hashItem, Hashed.tuple, Hashed.lt, if_neg hne]

/-- An item is put at the place of its key. -/
theorem insertSorted_hashItem {item : String × Json} {items : List (String × Json)}
    (hsorted : items.Pairwise (fun a b => a.1 < b.1)) (hnew : item.1 ∉ items.map Prod.fst) :
  ∃ items' : List (String × Json), (hashItem item).insertSorted (items.map hashItem) = .ok (items'.map hashItem)
    ∧ items'.Perm (item :: items) ∧ items'.Pairwise (fun a b => a.1 < b.1)
  := by
  induction items with
  | nil => exact ⟨[item], rfl, .refl _, List.pairwise_singleton _ _⟩
  | cons other items ih =>
      rw [List.map_cons, List.mem_cons, not_or] at hnew
      obtain ⟨hne, hnew⟩ := hnew
      obtain ⟨hhead, htail⟩ := List.pairwise_cons.mp hsorted
      rw [List.map_cons, Hashed.insertSorted, lt_hashItem hne]
      simp only [bind, Except.bind, pure, Except.pure]
      by_cases hlt : item.1 < other.1
      · refine ⟨item :: other :: items, ?_, .refl _, ?_⟩
        · simp [hlt]
        · apply List.pairwise_cons.mpr
          use List.forall_mem_cons.mpr ⟨hlt, fun a ha => hlt.trans (hhead a ha)⟩
      · obtain ⟨items', hinsert, hperm, hsorted'⟩ := ih htail hnew
        refine ⟨other :: items', ?_, ?_, ?_⟩
        · simp [hlt, hinsert]
        · exact (hperm.cons other).trans (.swap item other items)
        · apply List.pairwise_cons.mpr
          use ?_, hsorted'
          intro a ha
          rcases List.mem_cons.mp (hperm.subset ha) with rfl | ha
          · exact lt_of_le_of_ne (not_lt.mp hlt) (Ne.symm hne)
          · exact hhead a ha

/-- Sorting the items of an object puts them in key order. -/
theorem sorted_hashItem {items : List (String × Json)} (h : (items.map Prod.fst).Nodup) :
  Hashed.sorted (items.map hashItem)
    = .ok ((Paging.inOrder Prod.fst items).map hashItem)
  := by
  suffices hfrom : ∀ done : List (String × Json), done.Pairwise (fun a b => a.1 < b.1) →
      ((done ++ items).map Prod.fst).Nodup →
        ∃ items' : List (String × Json),
          (items.map hashItem).foldlM (fun done item => item.insertSorted done)
              (done.map hashItem) = .ok (items'.map hashItem)
          ∧ items'.Perm (done ++ items) ∧ items'.Pairwise (fun a b => a.1 < b.1) by
    obtain ⟨items', hsorted, hperm, hpairwise⟩ := hfrom [] .nil h
    rw [Hashed.sorted, ← List.map_nil, hsorted, Paging.inOrder_congr Prod.fst h hperm.symm,
      Paging.inOrder_of_pairwise Prod.fst hpairwise]
  clear h
  induction items with
  | nil =>
      intro done hsorted _
      exact ⟨done, rfl, by simp, hsorted⟩
  | cons item items ih =>
      intro done hsorted hnodup
      have hnew : item.1 ∉ done.map Prod.fst := by
        intro hmem
        rw [List.map_append, List.map_cons, List.nodup_middle, List.nodup_cons] at hnodup
        exact hnodup.1 (List.mem_append_left _ hmem)
      obtain ⟨done', hinsert, hperm, hsorted'⟩ := insertSorted_hashItem hsorted hnew
      have hmiddle : (done' ++ items).Perm (done ++ item :: items) :=
        (hperm.append_right items).trans List.perm_middle.symm
      obtain ⟨items', hfold, hperm', hpairwise⟩ :=
        ih done' hsorted' ((hmiddle.map Prod.fst).nodup_iff.mpr hnodup)
      refine ⟨items', ?_, hperm'.trans hmiddle, hpairwise⟩
      rw [List.map_cons, List.foldlM_cons, hinsert]
      exact hfold

/-- A JSON value always has a normalization, that of the value with its keys in order. -/
theorem makeHashable_toValue {json : Json} (h : json.WellFormed) :
  makeHashable json.toValue = .ok json.sortKeys.hash
  := by
  induction json with
  | null => rfl
  | bool value => rfl
  | int value => rfl
  | float value => rfl
  | str value => rfl
  | list items ih =>
      rw [WellFormed, wellFormed_each] at h
      have heach : makeHashable.each (items.map toValue)
          = .ok ((items.map sortKeys).map hash) := by
        induction items with
        | nil => rfl
        | cons item items ihitems =>
            obtain ⟨hitem, hitems⟩ := List.forall_mem_cons.mp h
            obtain ⟨ihitem, ihrest⟩ := List.forall_mem_cons.mp ih
            rw [List.map_cons, makeHashable.each, ihitem hitem, ihitems ihrest hitems]
            rfl
      rw [toValue, makeHashable, toValue_each, heach, sortKeys, hash, sortKeys_each, hash_each]
      rfl
  | object items ih =>
      obtain ⟨hnodup, hitems⟩ := h
      rw [wellFormed_eachItem] at hitems
      have heach : makeHashable.eachItem (items.map (fun item => (.str item.1, item.2.toValue)))
          = .ok ((items.map (fun item => (item.1, item.2.sortKeys))).map hashItem) := by
        clear hnodup
        induction items with
        | nil => rfl
        | cons item items ihitems =>
            obtain ⟨hitem, hrest⟩ := List.forall_mem_cons.mp hitems
            obtain ⟨ihitem, ihrest⟩ := List.forall_mem_cons.mp ih
            rw [List.map_cons, makeHashable.eachItem, ihitem hitem, ihitems ihrest hrest]
            rfl
      have hkeys : ((items.map (fun item => (item.1, item.2.sortKeys))).map Prod.fst).Nodup := by
        rw [List.map_map]
        exact hnodup
      rw [toValue, makeHashable, toValue_eachItem, heach, sortKeys, hash, sortKeys_eachItem,
        hash_eachItem]
      simp only [bind, Except.bind, sorted_hashItem hkeys]
      rfl

end Json

end Orcastork
