import Orcastork.Library.Dict

/-!
# Keyed upserts

Rows are kept one for each key. A row of a new key is put last; a row of a known key is
joined into the one that is there, which keeps its place. `Upsert` is what this needs: the
key of a row and the join of a row with a later one of its key.

The rows after a list of observations are determined, key by key, by the observations of
that key (`row_putAll`), so rows may be filtered by key before or after (`filter_putAll`),
and two upserts whose keys and joins correspond keep corresponding rows
(`forall₂_putAll`). Where joining again changes nothing (`Lawful`), an observation that was
absorbed may be absorbed again or left out.
-/

universe u v w x

/-- The key of a row, and a row joined with a later one of its key. -/
structure Upsert (K : Type u) (V : Type v) where
  key : V → K
  /-- The row that is there comes first. -/
  join : V → V → V
  key_join : ∀ v w, key (join v w) = key v

namespace Upsert

variable {K : Type u} {V : Type v} (u : Upsert K V)

attribute [simp] key_join

/-! ### What becomes of one row -/

/-- What the row of a key becomes by an observation. -/
def absorb (r : Option V) (v : V) : V :=
  match r with
  | none => v
  | some w => u.join w v

/-- What the row of a key becomes by the observations of a list. -/
def absorbAll (r : Option V) (vs : List V) : Option V :=
  vs.foldl (fun r v => some (u.absorb r v)) r

@[simp]
theorem absorbAll_nil (r : Option V) :
  u.absorbAll r [] = r
  := rfl

@[simp]
theorem absorbAll_cons (r : Option V) (v : V) (vs : List V) :
  u.absorbAll r (v :: vs) = u.absorbAll (some (u.absorb r v)) vs
  := rfl

theorem absorbAll_append (r : Option V) (vs vs' : List V) :
  u.absorbAll r (vs ++ vs') = u.absorbAll (u.absorbAll r vs) vs'
  := List.foldl_append

/-! ### Joining again -/

/-- Joining the same observation again changes nothing, and the order of the observations
joined into a row does not matter. -/
structure Lawful : Prop where
  join_self : ∀ v, u.join v v = v
  join_join_self : ∀ w v, u.join (u.join w v) v = u.join w v
  join_right_comm : ∀ w v v', u.join (u.join w v) v' = u.join (u.join w v') v

namespace Lawful

variable {u} (h : u.Lawful)

include h

/-- A row that has absorbed an observation still has after another. -/
theorem absorbed_join {w v : V} (hw : u.join w v = w) (v' : V) :
  u.join (u.join w v') v = u.join w v'
  := by
  rw [h.join_right_comm, hw]

/-- Observations that a row has absorbed may be left out. -/
theorem absorbAll_filter {X : Type*} {f : X → V} {q : X → Bool} {r : Option V} {xs : List X}
    (hxs : ∀ x ∈ xs, q x = false → ∃ w, r = some w ∧ u.join w (f x) = w) :
  u.absorbAll r ((xs.filter q).map f) = u.absorbAll r (xs.map f)
  := by
  induction xs generalizing r with
  | nil => rfl
  | cons x xs ih =>
      rw [List.map_cons, absorbAll_cons]
      cases hq : q x with
      | true =>
          rw [List.filter_cons_of_pos hq, List.map_cons, absorbAll_cons]
          apply ih
          intro x' hx' hq'
          obtain ⟨w, rfl, hw⟩ := hxs x' (List.mem_cons_of_mem x hx') hq'
          exact ⟨u.join w (f x), rfl, h.absorbed_join hw (f x)⟩
      | false =>
          obtain ⟨w, rfl, hw⟩ := hxs x List.mem_cons_self hq
          have hnot : ¬q x = true := by simp [hq]
          rw [List.filter_cons_of_neg hnot, absorb, hw]
          apply ih
          intro x' hx' hq'
          exact hxs x' (List.mem_cons_of_mem x hx') hq'

/-- Joining an observation into a row ahead of the others changes nothing. -/
theorem absorbAll_join {w v : V} {vs : List V} (hv : v ∈ vs) :
  u.absorbAll (some (u.join w v)) vs = u.absorbAll (some w) vs
  := by
  induction vs generalizing w with
  | nil => cases hv
  | cons v' vs ih =>
      rw [absorbAll_cons, absorbAll_cons, absorb, absorb]
      rcases List.mem_cons.mp hv with rfl | hv
      · rw [h.join_join_self]
      · rw [h.join_right_comm, ih hv]

/-- After observations, the row of one of them has absorbed it. -/
theorem exists_absorbAll {v : V} {vs : List V} (hv : v ∈ vs) (r : Option V) :
  ∃ w, u.absorbAll r vs = some w ∧ u.join w v = w
  := by
  have hkept : ∀ vs : List V, ∀ w, u.join w v = w →
      ∃ w', u.absorbAll (some w) vs = some w' ∧ u.join w' v = w' := by
    intro vs
    induction vs with
    | nil =>
        intro w hw
        exact ⟨w, rfl, hw⟩
    | cons v' vs ih =>
        intro w hw
        exact ih (u.join w v') (h.absorbed_join hw v')
  obtain ⟨before, after, rfl⟩ := List.append_of_mem hv
  rw [absorbAll_append, absorbAll_cons]
  apply hkept
  cases u.absorbAll r before with
  | none => exact h.join_self v
  | some w => exact h.join_join_self w v

/-- Inserting the first observation ahead of all changes nothing. -/
theorem absorbAll_first (v : V) (vs : List V) :
  u.absorbAll (some v) (v :: vs) = u.absorbAll none (v :: vs)
  := by
  rw [absorbAll_cons, absorbAll_cons, absorb, absorb, h.join_self]

end Lawful

/-! ### Putting rows in -/

variable [DecidableEq K]

/-- The rows with `v` put in. -/
def put (v : V) : List V → List V
  | [] => [v]
  | w :: l => if u.key w = u.key v then u.join w v :: l else w :: put v l

/-- The rows with the observations of a list put in, one after another. -/
def putAll (l vs : List V) : List V :=
  vs.foldl (fun l v => u.put v l) l

@[simp]
theorem putAll_nil (l : List V) :
  u.putAll l [] = l
  := rfl

@[simp]
theorem putAll_cons (l : List V) (v : V) (vs : List V) :
  u.putAll l (v :: vs) = u.putAll (u.put v l) vs
  := rfl

theorem putAll_append (l vs vs' : List V) :
  u.putAll l (vs ++ vs') = u.putAll (u.putAll l vs) vs'
  := List.foldl_append

/-! ### The keys -/

theorem map_key_put (v : V) (l : List V) :
  (u.put v l).map u.key
    = if u.key v ∈ l.map u.key then l.map u.key else l.map u.key ++ [u.key v]
  := by
  induction l with
  | nil => rfl
  | cons w l ih =>
      by_cases h : u.key w = u.key v
      · simp [put, h]
      · have h' : ¬u.key v = u.key w := fun e => h e.symm
        simp only [put, h, if_false, List.map_cons, ih, List.mem_cons, h', false_or]
        split
        · rfl
        · rfl

/-- Putting a row in keeps the keys distinct. -/
theorem nodup_put {l : List V} (h : (l.map u.key).Nodup) (v : V) :
  ((u.put v l).map u.key).Nodup
  := by
  rw [map_key_put]
  split
  · exact h
  · rename_i hnew
    apply List.Nodup.append h (List.nodup_singleton (u.key v))
    simpa using hnew

theorem nodup_putAll {l : List V} (h : (l.map u.key).Nodup) (vs : List V) :
  ((u.putAll l vs).map u.key).Nodup
  := by
  induction vs generalizing l with
  | nil => exact h
  | cons v vs ih =>
      apply ih
      apply u.nodup_put h

/-- Rows with distinct new keys are put last as they are. -/
theorem putAll_of_nodup {l vs : List V} (hnodup : (vs.map u.key).Nodup)
    (hnew : ∀ v ∈ vs, u.key v ∉ l.map u.key) :
  u.putAll l vs = l ++ vs
  := by
  induction vs generalizing l with
  | nil => simp
  | cons v vs ih =>
      simp only [List.map_cons, List.nodup_cons] at hnodup
      have hput : u.put v l = l ++ [v] := by
        have hv := hnew v List.mem_cons_self
        clear hnew ih
        induction l with
        | nil => rfl
        | cons w l ih =>
            simp only [List.map_cons, List.mem_cons, not_or] at hv
            have hne : ¬u.key w = u.key v := fun e => hv.1 e.symm
            rw [put, if_neg hne, ih hv.2, List.cons_append]
      rw [putAll_cons, hput, ih hnodup.2]
      · simp
      · intro w hw
        have hne : u.key w ≠ u.key v := by
          intro e
          apply hnodup.1
          rw [← e]
          exact List.mem_map_of_mem hw
        have hold := hnew w (List.mem_cons_of_mem v hw)
        simp only [List.map_append, List.map_cons, List.map_nil, List.mem_append,
          List.mem_singleton]
        rintro (h | h)
        · exact hold h
        · exact hne h

/-! ### The row of a key -/

/-- The row of a key, if there is one. -/
def row (k : K) (l : List V) : Option V := l.find? (fun w => u.key w = k)

@[simp]
theorem row_nil (k : K) :
  u.row k [] = none
  := rfl

theorem row_cons (k : K) (w : V) (l : List V) :
  u.row k (w :: l) = if u.key w = k then some w else u.row k l
  := by
  rw [row, List.find?_cons]
  by_cases h : u.key w = k
  · simp [h]
  · simp [h, row]

theorem key_of_row {k : K} {l : List V} {w : V} (h : u.row k l = some w) :
  u.key w = k
  := by
  simpa using List.find?_some h

theorem mem_of_row {k : K} {l : List V} {w : V} (h : u.row k l = some w) :
  w ∈ l
  := List.mem_of_find?_eq_some h

theorem row_isSome_iff {k : K} {l : List V} :
  (u.row k l).isSome ↔ k ∈ l.map u.key
  := by
  rw [row, List.find?_isSome, List.mem_map]
  simp

/-- Where the keys are distinct, a row is the row of its key. -/
theorem row_of_mem {l : List V} (hl : (l.map u.key).Nodup) {w : V} (h : w ∈ l) :
  u.row (u.key w) l = some w
  := by
  induction l with
  | nil => cases h
  | cons v l ih =>
      simp only [List.map_cons, List.nodup_cons] at hl
      rw [row_cons]
      rcases List.mem_cons.mp h with rfl | h
      · rw [if_pos rfl]
      · have hne : ¬u.key v = u.key w := by
          intro e
          apply hl.1
          rw [e]
          exact List.mem_map_of_mem h
        rw [if_neg hne, ih hl.2 h]

theorem row_put (k : K) (v : V) (l : List V) :
  u.row k (u.put v l) = if u.key v = k then some (u.absorb (u.row k l) v) else u.row k l
  := by
  induction l with
  | nil => rw [put, row_cons]; rfl
  | cons w l ih =>
      by_cases h : u.key w = u.key v
      · rw [put, if_pos h, row_cons, row_cons, key_join, h]
        split
        · rfl
        · rfl
      · rw [put, if_neg h, row_cons, row_cons, ih]
        by_cases hk : u.key w = k
        · have hne : ¬u.key v = k := fun e => h (hk.trans e.symm)
          rw [if_pos hk, if_neg hne, if_pos hk]
        · rw [if_neg hk, if_neg hk]

/-- The row of a key after observations is what those of the key make of it. -/
theorem row_putAll (k : K) (l vs : List V) :
  u.row k (u.putAll l vs) = u.absorbAll (u.row k l) (vs.filter (fun v => u.key v = k))
  := by
  induction vs generalizing l with
  | nil => rfl
  | cons v vs ih =>
      rw [putAll_cons, ih, row_put]
      by_cases h : u.key v = k
      · simp [h]
      · simp [h]

/-- Rows with distinct keys and the same row at every key are the same up to order. -/
theorem perm_of_row {l l' : List V} (hl : (l.map u.key).Nodup) (hl' : (l'.map u.key).Nodup)
    (h : ∀ k, u.row k l = u.row k l') :
  l.Perm l'
  := by
  apply (List.perm_ext_iff_of_nodup (List.Nodup.of_map _ hl) (List.Nodup.of_map _ hl')).mpr
  intro w
  constructor
  · intro hw
    apply u.mem_of_row
    rw [← h, u.row_of_mem hl hw]
  · intro hw
    apply u.mem_of_row
    rw [h, u.row_of_mem hl' hw]

/-! ### Filtering by key -/

section Filter

variable {p : V → Bool} (hp : ∀ v w, u.key v = u.key w → p v = p w)

include hp

theorem filter_put (v : V) (l : List V) :
  (u.put v l).filter p = if p v then u.put v (l.filter p) else l.filter p
  := by
  induction l with
  | nil =>
      rw [put, List.filter_cons]
      rfl
  | cons w l ih =>
      by_cases h : u.key w = u.key v
      · have hjoin : p (u.join w v) = p v := hp _ _ ((u.key_join w v).trans h)
        rw [put, if_pos h, List.filter_cons, List.filter_cons, hjoin, hp w v h]
        split
        · rw [put, if_pos h]
        · rfl
      · rw [put, if_neg h, List.filter_cons, List.filter_cons, ih]
        by_cases hw : p w = true
        · rw [if_pos hw, if_pos hw]
          split
          · rw [put, if_neg h]
          · rfl
        · rw [if_neg hw, if_neg hw]

/-- Rows may be filtered by key after the observations or before. -/
theorem filter_putAll (l vs : List V) :
  (u.putAll l vs).filter p = u.putAll (l.filter p) (vs.filter p)
  := by
  induction vs generalizing l with
  | nil => rfl
  | cons v vs ih =>
      rw [putAll_cons, ih, u.filter_put hp, List.filter_cons]
      split
      · rfl
      · rfl

end Filter

/-! ### Corresponding upserts -/

section Related

variable {L : Type w} {W : Type x} [DecidableEq L] {u} {u' : Upsert L W} {R : V → W → Prop}
variable (hkey : ∀ {v v' w w'}, R v w → R v' w' → (u.key v = u.key v' ↔ u'.key w = u'.key w'))
variable (hjoin : ∀ {v v' w w'}, R v w → R v' w' → u.key v = u.key v' →
  R (u.join v v') (u'.join w w'))

include hkey hjoin

theorem forall₂_put {v : V} {w : W} (h : R v w) {l : List V} {m : List W}
    (hl : List.Forall₂ R l m) :
  List.Forall₂ R (u.put v l) (u'.put w m)
  := by
  induction hl with
  | nil => exact .cons h .nil
  | cons hhead htail ih =>
      rw [put, put]
      split
      · rename_i hsame
        rw [if_pos ((hkey hhead h).mp hsame)]
        exact .cons (hjoin hhead h hsame) htail
      · rename_i hother
        rw [if_neg (fun e => hother ((hkey hhead h).mpr e))]
        exact .cons hhead ih

/-- Corresponding observations keep corresponding rows so. -/
theorem forall₂_putAll {vs : List V} {ws : List W} (h : List.Forall₂ R vs ws) {l : List V}
    {m : List W} (hl : List.Forall₂ R l m) :
  List.Forall₂ R (u.putAll l vs) (u'.putAll m ws)
  := by
  induction h generalizing l m with
  | nil => exact hl
  | cons hhead htail ih =>
      apply ih
      apply forall₂_put hkey hjoin hhead hl

end Related

section Map

variable {W : Type w} {u} {u' : Upsert K W} {f : V → W}
variable (hkey : ∀ v, u'.key (f v) = u.key v)
variable (hjoin : ∀ v v', f (u.join v v') = u'.join (f v) (f v'))

include hkey hjoin

theorem map_put (v : V) (l : List V) :
  (u.put v l).map f = u'.put (f v) (l.map f)
  := by
  induction l with
  | nil => rfl
  | cons w l ih =>
      rw [List.map_cons, put, put, hkey, hkey]
      split
      · rw [List.map_cons, hjoin]
      · rw [List.map_cons, ih]

/-- Rows may be mapped before the observations or after, if keys and joins are kept. -/
theorem map_putAll (l vs : List V) :
  (u.putAll l vs).map f = u'.putAll (l.map f) (vs.map f)
  := by
  induction vs generalizing l with
  | nil => rfl
  | cons v vs ih =>
      rw [List.map_cons, putAll_cons, putAll_cons, ih, map_put hkey hjoin]

end Map

/-! ### Rows in a dictionary -/

/-- Setting the key of an observation to what its row becomes puts the observation in. -/
theorem values_set {d : Dict K V} (hd : ∀ k w, d.get? k = some w → u.key w = k) (v : V) :
  (d.set (u.key v) (u.absorb (d.get? (u.key v)) v)).values = u.put v d.values
  := by
  have h : ∀ items : List (K × V), (∀ item ∈ items, u.key item.2 = item.1) →
      (Dict.setItem (u.key v) (u.absorb (Dict.lookup (u.key v) items) v) items).map Prod.snd
        = u.put v (items.map Prod.snd) := by
    intro items hitems
    induction items with
    | nil => rfl
    | cons item items ih =>
        obtain ⟨k, w⟩ := item
        simp only [List.mem_cons, forall_eq_or_imp] at hitems
        obtain ⟨rfl, hitems⟩ := hitems
        by_cases hk : u.key w = u.key v
        · simp [Dict.setItem, Dict.lookup, put, hk, absorb]
        · simp [Dict.setItem, Dict.lookup, put, hk, ih hitems]
  apply h
  intro item hitem
  exact hd item.1 item.2 (Dict.get?_eq_some_iff.mpr hitem)

end Upsert
