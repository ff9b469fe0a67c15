import Mathlib.Data.List.Basic
import Mathlib.Data.List.Nodup
import Mathlib.Data.List.Lookmap
import Mathlib.Tactic.Common

/-!
# Insertion-ordered dictionaries

A `Dict K V` is a finite map that remembers the order in which its keys were first set.
Setting a key that is present replaces its value in place; setting a new key puts it last.

Two dictionaries are equal when they have the same keys in the same order and the same
value at every key (`Dict.ext_keys`), so a fact about a dictionary built by a loop splits
into one about `keys` and one about `get?`.
-/

universe u v w

/-- A dictionary: its items in insertion order, no key twice. -/
structure Dict (K : Type u) (V : Type v) where
  /-- The key-value pairs, in insertion order. -/
  items : List (K × V)
  /-- No key occurs twice. -/
  nodup : (items.map Prod.fst).Nodup

namespace Dict

variable {K : Type u} {V : Type v} {W : Type w}

/-- The keys, in insertion order. -/
def keys (d : Dict K V) : List K := d.items.map Prod.fst

/-- The values, in the order of their keys. -/
def values (d : Dict K V) : List V := d.items.map Prod.snd

/-- The dictionary with no items. -/
def empty : Dict K V := ⟨[], List.nodup_nil⟩

instance : Inhabited (Dict K V) := ⟨empty⟩

@[simp]
theorem keys_empty :
  (empty : Dict K V).keys = []
  := rfl

@[simp]
theorem values_empty :
  (empty : Dict K V).values = []
  := rfl

theorem nodup_keys (d : Dict K V) :
  d.keys.Nodup
  := d.nodup

/-- Dictionaries with the same items are equal. -/
theorem ext_items {d e : Dict K V} (h : d.items = e.items) :
  d = e
  := by
  cases d
  cases e
  cases h
  rfl

/-! ### Looking a key up -/

variable [DecidableEq K]

/-- The value at the first pair of `l` whose key is `k`. -/
def lookup (k : K) : List (K × V) → Option V
  | [] => none
  | (k', v) :: l => if k' = k then some v else lookup k l

/-- The value at `k`, if `k` is a key. -/
def get? (d : Dict K V) (k : K) : Option V := lookup k d.items

@[simp]
theorem get?_empty (k : K) :
  (empty : Dict K V).get? k = none
  := rfl

theorem lookup_isSome_iff {k : K} {l : List (K × V)} :
  (lookup k l).isSome ↔ k ∈ l.map Prod.fst
  := by
  induction l with
  | nil => simp [lookup]
  | cons p l ih =>
      obtain ⟨k', v⟩ := p
      by_cases h : k' = k
      · simp [lookup, h]
      · have h' : ¬k = k' := fun e => h e.symm
        simp [lookup, h, h', ih]

theorem mem_of_lookup {k : K} {v : V} {l : List (K × V)} (h : lookup k l = some v) :
  (k, v) ∈ l
  := by
  induction l with
  | nil => simp [lookup] at h
  | cons p l ih =>
      obtain ⟨k', v'⟩ := p
      by_cases hk : k' = k
      · simp only [lookup, hk, if_true, Option.some.injEq] at h
        simp [hk, h]
      · simp only [lookup, hk, if_false] at h
        exact List.mem_cons_of_mem _ (ih h)

theorem lookup_of_mem {k : K} {v : V} {l : List (K × V)} (hl : (l.map Prod.fst).Nodup)
    (h : (k, v) ∈ l) :
  lookup k l = some v
  := by
  induction l with
  | nil => cases h
  | cons p l ih =>
      obtain ⟨k', v'⟩ := p
      simp only [List.map_cons, List.nodup_cons] at hl
      rcases List.mem_cons.mp h with h | h
      · cases h
        simp [lookup]
      · have hk : k' ≠ k := by
          rintro rfl
          exact hl.1 (List.mem_map_of_mem h)
        simp only [lookup, hk, if_false]
        exact ih hl.2 h

/-- The pairs of a key are the one that is looked up. -/
theorem filter_key {k : K} {l : List (K × V)} (hl : (l.map Prod.fst).Nodup) :
  l.filter (fun p => p.1 = k) = ((lookup k l).map (fun v => (k, v))).toList
  := by
  induction l with
  | nil => rfl
  | cons p l ih =>
      obtain ⟨k', v⟩ := p
      simp only [List.map_cons, List.nodup_cons] at hl
      by_cases hk : k' = k
      · subst hk
        have hrest : l.filter (fun p => p.1 = k') = [] := by
          apply List.filter_eq_nil_iff.mpr
          intro p hp
          rw [decide_eq_true_eq]
          rintro rfl
          exact hl.1 (List.mem_map_of_mem hp)
        simp [lookup, hrest]
      · simp [lookup, hk, ih hl.2]

/-- A key is present exactly when it has a value. -/
theorem get?_isSome_iff {d : Dict K V} {k : K} :
  (d.get? k).isSome ↔ k ∈ d.keys
  := lookup_isSome_iff

theorem get?_eq_none_iff {d : Dict K V} {k : K} :
  d.get? k = none ↔ k ∉ d.keys
  := by
  rw [← get?_isSome_iff, Option.not_isSome_iff_eq_none]

/-- The items are the keys paired with their values. -/
theorem get?_eq_some_iff {d : Dict K V} {k : K} {v : V} :
  d.get? k = some v ↔ (k, v) ∈ d.items
  := by
  constructor
  · apply mem_of_lookup
  · apply lookup_of_mem d.nodup

theorem mem_keys_of_get? {d : Dict K V} {k : K} {v : V} (h : d.get? k = some v) :
  k ∈ d.keys
  := by
  apply get?_isSome_iff.mp
  rw [h]
  rfl

theorem mem_values_iff {d : Dict K V} {v : V} :
  v ∈ d.values ↔ ∃ k, d.get? k = some v
  := by
  simp only [values, List.mem_map, get?_eq_some_iff, Prod.exists, exists_eq_right]

theorem isEmpty_values_of_get? {d : Dict K V} {k : K} {v : V} (h : d.get? k = some v) :
  d.values.isEmpty = false
  := by
  have hmem : v ∈ d.values := mem_values_iff.mpr ⟨k, h⟩
  cases hvalues : d.values with
  | nil => simp [hvalues] at hmem
  | cons v' l => rfl

private theorem eq_of_lookup :
    ∀ {l m : List (K × V)}, l.map Prod.fst = m.map Prod.fst → (l.map Prod.fst).Nodup →
      (∀ k, lookup k l = lookup k m) → l = m
  | [], [], _, _, _ => rfl
  | (k, v) :: l, (k', v') :: m, hk, hl, h => by
      simp only [List.map_cons, List.cons.injEq] at hk
      obtain ⟨rfl, hk⟩ := hk
      simp only [List.map_cons, List.nodup_cons] at hl
      have hv := h k
      simp only [lookup, if_true, Option.some.injEq] at hv
      subst hv
      congr 1
      apply eq_of_lookup hk hl.2
      intro x
      by_cases hx : k = x
      · subst hx
        have hl' : lookup k l = none := by
          rw [← Option.not_isSome_iff_eq_none, lookup_isSome_iff]
          exact hl.1
        have hm' : lookup k m = none := by
          rw [← Option.not_isSome_iff_eq_none, lookup_isSome_iff, ← hk]
          exact hl.1
        rw [hl', hm']
      · have hx' := h x
        simp only [lookup, hx, if_false] at hx'
        exact hx'

/-- Dictionaries with the same keys in the same order and the same value at every key are
equal. -/
theorem ext_keys {d e : Dict K V} (hk : d.keys = e.keys) (h : ∀ k, d.get? k = e.get? k) :
  d = e
  := by
  apply ext_items
  apply eq_of_lookup hk d.nodup h

/-! ### Setting a key -/

/-- The items with `k` set to `v`: in place if `k` occurs, else at the end. -/
def setItem (k : K) (v : V) : List (K × V) → List (K × V)
  | [] => [(k, v)]
  | (k', v') :: l => if k' = k then (k, v) :: l else (k', v') :: setItem k v l

theorem map_fst_setItem (k : K) (v : V) (l : List (K × V)) :
  (setItem k v l).map Prod.fst
    = if k ∈ l.map Prod.fst then l.map Prod.fst else l.map Prod.fst ++ [k]
  := by
  induction l with
  | nil => rfl
  | cons p l ih =>
      obtain ⟨k', v'⟩ := p
      by_cases h : k' = k
      · simp [setItem, h]
      · have h' : ¬k = k' := fun e => h e.symm
        simp only [setItem, h, if_false, List.map_cons, ih, List.mem_cons, h', false_or]
        split
        · rfl
        · rfl

theorem lookup_setItem (k k' : K) (v : V) (l : List (K × V)) :
  lookup k' (setItem k v l) = if k = k' then some v else lookup k' l
  := by
  induction l with
  | nil => rfl
  | cons p l ih =>
      obtain ⟨k₀, v₀⟩ := p
      by_cases h : k₀ = k
      · subst h
        by_cases h' : k₀ = k'
        · simp [setItem, lookup, h']
        · simp [setItem, lookup, h']
      · simp only [setItem, h, if_false, lookup, ih]
        by_cases h' : k₀ = k'
        · subst h'
          have h'' : ¬k = k₀ := fun e => h e.symm
          simp [h'']
        · simp [h']

/-- `d[k] = v`: the dictionary with the value at `k` set to `v`. -/
def set (d : Dict K V) (k : K) (v : V) : Dict K V where
  items := setItem k v d.items
  nodup := by
    rw [map_fst_setItem]
    split
    · exact d.nodup
    · rename_i h
      apply List.Nodup.append d.nodup (List.nodup_singleton k)
      simpa using h

theorem keys_set (d : Dict K V) (k : K) (v : V) :
  (d.set k v).keys = if k ∈ d.keys then d.keys else d.keys ++ [k]
  := map_fst_setItem k v d.items

theorem keys_set_of_mem {d : Dict K V} {k : K} (h : k ∈ d.keys) (v : V) :
  (d.set k v).keys = d.keys
  := by
  rw [keys_set, if_pos h]

theorem keys_set_of_not_mem {d : Dict K V} {k : K} (h : k ∉ d.keys) (v : V) :
  (d.set k v).keys = d.keys ++ [k]
  := by
  rw [keys_set, if_neg h]

theorem get?_set (d : Dict K V) (k k' : K) (v : V) :
  (d.set k v).get? k' = if k = k' then some v else d.get? k'
  := lookup_setItem k k' v d.items

@[simp]
theorem get?_set_self (d : Dict K V) (k : K) (v : V) :
  (d.set k v).get? k = some v
  := by
  rw [get?_set, if_pos rfl]

theorem get?_set_of_ne (d : Dict K V) {k k' : K} (h : k ≠ k') (v : V) :
  (d.set k v).get? k' = d.get? k'
  := by
  rw [get?_set, if_neg h]

/-- A dictionary in which some keys were set in turn, each to what a function gives for it. -/
theorem get?_foldl_set (f : K → V) (keys : List K) (d : Dict K V) (k : K) :
  (keys.foldl (fun d key => d.set key (f key)) d).get? k
    = if k ∈ keys then some (f k) else d.get? k
  := by
  induction keys generalizing d with
  | nil => rfl
  | cons key keys ih =>
      rw [List.foldl_cons, ih, get?_set]
      by_cases hmem : k ∈ keys
      · rw [if_pos hmem, if_pos (List.mem_cons_of_mem _ hmem)]
      · rw [if_neg hmem]
        by_cases hsame : key = k
        · rw [if_pos hsame, if_pos (hsame ▸ List.mem_cons_self), hsame]
        · rw [if_neg hsame, if_neg]
          rw [List.mem_cons]
          apply not_or_intro (Ne.symm hsame) hmem

/-- Setting a new key puts its value last. -/
theorem values_set_of_not_mem {d : Dict K V} {k : K} (h : k ∉ d.keys) (v : V) :
  (d.set k v).values = d.values ++ [v]
  := by
  have hitems : ∀ items : List (K × V), k ∉ items.map Prod.fst →
      setItem k v items = items ++ [(k, v)] := by
    intro items hk
    induction items with
    | nil => rfl
    | cons item items ih =>
        rw [List.map_cons, List.mem_cons, not_or] at hk
        rw [setItem, if_neg (Ne.symm hk.1), ih hk.2, List.cons_append]
  have hset : (d.set k v).items = d.items ++ [(k, v)] := hitems d.items h
  rw [values, hset, List.map_append]
  rfl

/-- Setting a key to the value it has changes nothing. -/
theorem set_eq_self {d : Dict K V} {k : K} {v : V} (h : d.get? k = some v) :
  d.set k v = d
  := by
  apply ext_keys
  · exact keys_set_of_mem (mem_keys_of_get? h) v
  · intro k'
    rw [get?_set]
    split
    · rename_i hk
      rw [← hk, h]
    · rfl

/-- A property of all values still holds after a value that has it was set. -/
theorem forall_get?_set {d : Dict K V} {P : V → Prop} (h : ∀ k v, d.get? k = some v → P v) (k : K)
    {v : V} (hv : P v) :
  ∀ k' v', (d.set k v).get? k' = some v' → P v'
  := by
  intro k' v' hget
  rw [get?_set] at hget
  split at hget
  · cases hget
    apply hv
  · apply h k' v' hget

/-- Setting a key leaves a dictionary as it is exactly when the key has that value. -/
theorem set_eq_self_iff {d : Dict K V} {k : K} {v : V} :
  d.set k v = d ↔ d.get? k = some v
  := by
  constructor
  · intro h
    rw [← h, get?_set_self]
  · apply set_eq_self

theorem mem_keys_set {d : Dict K V} {k k' : K} {v : V} :
  k' ∈ (d.set k v).keys ↔ k' = k ∨ k' ∈ d.keys
  := by
  rw [← get?_isSome_iff, ← get?_isSome_iff, get?_set]
  by_cases h : k = k'
  · simp [h]
  · have h' : ¬k' = k := fun e => h e.symm
    simp [h, h']

/-! ### Removing a key -/

/-- `del d[k]`: the dictionary without `k`. -/
def erase (d : Dict K V) (k : K) : Dict K V where
  items := d.items.filter (fun p => p.1 ≠ k)
  nodup := (List.filter_sublist.map Prod.fst).nodup d.nodup

theorem get?_erase (d : Dict K V) (k k' : K) :
  (d.erase k).get? k' = if k = k' then none else d.get? k'
  := by
  by_cases h : k = k'
  · subst h
    rw [if_pos rfl, get?_eq_none_iff]
    simp [keys, erase]
  · have h' : ¬k' = k := fun e => h e.symm
    rw [if_neg h]
    apply Option.ext
    intro v
    rw [get?_eq_some_iff, get?_eq_some_iff]
    simp [erase, h']

/-! ### Mapping the values -/

omit [DecidableEq K] in
private theorem map_fst_map (f : V → W) (l : List (K × V)) :
  (l.map (fun p => (p.1, f p.2))).map Prod.fst = l.map Prod.fst
  := by
  simp

/-- The dictionary with every value mapped along `f`. -/
def map (f : V → W) (d : Dict K V) : Dict K W where
  items := d.items.map (fun p => (p.1, f p.2))
  nodup := by
    rw [map_fst_map]
    exact d.nodup

omit [DecidableEq K] in
@[simp]
theorem keys_map (f : V → W) (d : Dict K V) :
  (d.map f).keys = d.keys
  := map_fst_map f d.items

omit [DecidableEq K] in
@[simp]
theorem values_map (f : V → W) (d : Dict K V) :
  (d.map f).values = d.values.map f
  := by
  simp [values, map]

@[simp]
theorem get?_map (f : V → W) (d : Dict K V) (k : K) :
  (d.map f).get? k = (d.get? k).map f
  := by
  have h : ∀ l : List (K × V),
      lookup k (l.map (fun p => (p.1, f p.2))) = (lookup k l).map f := by
    intro l
    induction l with
    | nil => rfl
    | cons p l ih =>
        by_cases hk : p.1 = k
        · simp [lookup, hk]
        · simp [lookup, hk, ih]
  exact h d.items

/-- Setting a key and mapping the values commute. -/
theorem map_set (f : V → W) (d : Dict K V) (k : K) (v : V) :
  (d.set k v).map f = (d.map f).set k (f v)
  := by
  apply ext_keys
  · rw [keys_map, keys_set, keys_set, keys_map]
  · intro k'
    rw [get?_map, get?_set, get?_set, get?_map]
    split
    · rfl
    · rfl

theorem map_erase (f : V → W) (d : Dict K V) (k : K) :
  (d.erase k).map f = (d.map f).erase k
  := by
  apply ext_items
  simp only [map, erase, List.filter_map]
  rfl

/-! ### Merging items in -/

/-- The dictionary with the items of a list set one after another, each to what `f` makes
of it and of the value its key has by then. -/
def mergeWith (f : V → Option W → W) (d : Dict K W) (l : List (K × V)) : Dict K W :=
  l.foldl (fun d p => d.set p.1 (f p.2 (d.get? p.1))) d

@[simp]
theorem mergeWith_nil (f : V → Option W → W) (d : Dict K W) :
  d.mergeWith f [] = d
  := rfl

@[simp]
theorem mergeWith_cons (f : V → Option W → W) (d : Dict K W) (p : K × V) (l : List (K × V)) :
  d.mergeWith f (p :: l) = (d.set p.1 (f p.2 (d.get? p.1))).mergeWith f l
  := rfl

/-- After items with distinct keys were merged in, the key of an item has the value `f`
makes of the item and of the old value, any other key its old value. -/
theorem get?_mergeWith {f : V → Option W → W} {d : Dict K W} {l : List (K × V)}
    (hl : (l.map Prod.fst).Nodup) (k : K) :
  (d.mergeWith f l).get? k = ((lookup k l).map (fun v => f v (d.get? k))).or (d.get? k)
  := by
  induction l generalizing d with
  | nil => rfl
  | cons p l ih =>
      obtain ⟨k', v⟩ := p
      simp only [List.map_cons, List.nodup_cons] at hl
      rw [mergeWith_cons, ih hl.2, get?_set]
      by_cases h : k' = k
      · subst h
        have hn : lookup k' l = none := by
          rw [← Option.not_isSome_iff_eq_none, lookup_isSome_iff]
          exact hl.1
        simp [lookup, hn]
      · simp [lookup, h]

/-- After a dictionary was merged in, its keys have the values `f` makes of the new value
and the old, any other key its old value. -/
theorem get?_mergeWith_items (f : V → Option W → W) (d : Dict K W) (e : Dict K V) (k : K) :
  (d.mergeWith f e.items).get? k = ((e.get? k).map (fun v => f v (d.get? k))).or (d.get? k)
  := get?_mergeWith e.nodup k

/-- Merging in items with distinct keys puts the new keys last, in their order. -/
theorem keys_mergeWith {f : V → Option W → W} {d : Dict K W} {l : List (K × V)}
    (hl : (l.map Prod.fst).Nodup) :
  (d.mergeWith f l).keys = d.keys ++ (l.map Prod.fst).filter (fun k => k ∉ d.keys)
  := by
  induction l generalizing d with
  | nil => simp
  | cons p l ih =>
      obtain ⟨k, v⟩ := p
      simp only [List.map_cons, List.nodup_cons] at hl
      rw [mergeWith_cons, ih hl.2]
      have hfilter : (l.map Prod.fst).filter (fun x => x ∉ (d.set k (f v (d.get? k))).keys)
          = (l.map Prod.fst).filter (fun x => x ∉ d.keys) := by
        apply List.filter_congr
        intro x hx
        have hne : x ≠ k := by
          rintro rfl
          exact hl.1 hx
        simp [mem_keys_set, hne]
      rw [hfilter]
      by_cases h : k ∈ d.keys
      · rw [keys_set_of_mem h]
        simp [h]
      · rw [keys_set_of_not_mem h]
        simp [h]

/-- Merging in items with distinct keys that are all present keeps the keys. -/
theorem keys_mergeWith_of_subset {f : V → Option W → W} {d : Dict K W} {l : List (K × V)}
    (hl : (l.map Prod.fst).Nodup) (h : ∀ k ∈ l.map Prod.fst, k ∈ d.keys) :
  (d.mergeWith f l).keys = d.keys
  := by
  rw [keys_mergeWith hl, List.filter_eq_nil_iff.mpr, List.append_nil]
  intro k hk
  simp [h k hk]

/-- Merging in items with distinct keys that are all new appends the keys. -/
theorem keys_mergeWith_of_disjoint {f : V → Option W → W} {d : Dict K W} {l : List (K × V)}
    (hl : (l.map Prod.fst).Nodup) (h : ∀ k ∈ l.map Prod.fst, k ∉ d.keys) :
  (d.mergeWith f l).keys = d.keys ++ l.map Prod.fst
  := by
  rw [keys_mergeWith hl, List.filter_eq_self.mpr]
  intro k hk
  simp [h k hk]

/-- Merging items in and mapping the values commute, if `g` turns what `f` makes into what
`f'` makes. -/
theorem map_mergeWith {X : Type*} {f : V → Option W → W} (f' : V → Option X → X) {g : W → X}
    (h : ∀ v o, g (f v o) = f' v (o.map g)) (d : Dict K W) (l : List (K × V)) :
  (d.mergeWith f l).map g = (d.map g).mergeWith f' l
  := by
  induction l generalizing d with
  | nil => rfl
  | cons p l ih =>
      rw [mergeWith_cons, mergeWith_cons, ih, map_set, h, get?_map]

/-- `d |= l`: the items of `l` set one after another. -/
def update (d : Dict K V) (l : List (K × V)) : Dict K V :=
  d.mergeWith (fun v _ => v) l

/-- After an update from items with distinct keys, the key of an item has its value there,
any other key its old value. -/
theorem get?_update {d : Dict K V} {l : List (K × V)} (hl : (l.map Prod.fst).Nodup) (k : K) :
  (d.update l).get? k = (lookup k l).or (d.get? k)
  := by
  rw [update, get?_mergeWith hl, Option.map_id']

/-- A dictionary built from the items of another is that dictionary. -/
@[simp]
theorem update_empty (d : Dict K V) :
  empty.update d.items = d
  := by
  apply ext_keys
  · rw [update, keys_mergeWith_of_disjoint d.nodup (fun _ _ => List.not_mem_nil)]
    rfl
  · intro k
    rw [get?_update d.nodup, get?_empty, Option.or_none]
    rfl

end Dict
