import Mathlib.Data.List.Sort
import Mathlib.Tactic.Common

/-!
# Reading rows a page at a time

`fetch` is a query: the rows with a key past a given one, in key order, up to a limit.
`scan` repeats it from the last key of the page before, until a page is short of the limit.
Where the keys are distinct no row is skipped or read twice: `scan` returns the rows past
the first key, in key order, whatever the limit (`scan_eq`).
-/

universe u v

namespace Paging

variable {α : Type u} {κ : Type v} [LinearOrder κ] (key : α → κ)

instance total_key : Std.Total (fun a b => key a ≤ key b) := ⟨fun a b => le_total (key a) (key b)⟩

instance isTrans_key : IsTrans α (fun a b => key a ≤ key b) := ⟨fun _ _ _ => le_trans⟩

/-- The rows in key order. -/
def inOrder (rows : List α) : List α := rows.insertionSort (fun a b => key a ≤ key b)

/-- The rows with a key past `after`. -/
def past (rows : List α) (after : κ) : List α := rows.filter (fun row => after < key row)

/-- The rows past `after` in key order, at most `limit` of them. -/
def fetch (limit : ℕ) (rows : List α) (after : κ) : List α :=
  (inOrder key (past key rows after)).take limit

/-! ### Rows in order -/

theorem perm_inOrder (rows : List α) :
  (inOrder key rows).Perm rows
  := List.perm_insertionSort _ rows

@[simp]
theorem mem_inOrder {rows : List α} {row : α} :
  row ∈ inOrder key rows ↔ row ∈ rows
  := (perm_inOrder key rows).mem_iff

@[simp]
theorem mem_past {rows : List α} {after : κ} {row : α} :
  row ∈ past key rows after ↔ row ∈ rows ∧ after < key row
  := by
  simp [past]

/-- Rows already in order stay as they are. -/
theorem inOrder_of_pairwise {rows : List α}
    (h : rows.Pairwise (fun a b => key a < key b)) :
  inOrder key rows = rows
  := (h.imp fun hab => le_of_lt hab).insertionSort_eq

/-- Rows with distinct keys have strictly rising keys in order. -/
theorem pairwise_inOrder {rows : List α} (h : (rows.map key).Nodup) :
  (inOrder key rows).Pairwise (fun a b => key a < key b)
  := by
  have hnodup : (inOrder key rows).Pairwise (fun a b => key a ≠ key b) := by
    rw [← List.pairwise_map (R := fun k k' => k ≠ k')]
    exact ((perm_inOrder key rows).map key).nodup_iff.mpr h
  have hsorted := List.pairwise_insertionSort (fun a b : α => key a ≤ key b) rows
  apply (hsorted.and hnodup).imp
  rintro a b ⟨hle, hne⟩
  exact lt_of_le_of_ne hle hne

/-- Rows that are the same up to order, their keys distinct, are the same in order. -/
theorem inOrder_congr {rows rows' : List α} (hnodup : (rows.map key).Nodup)
    (h : rows.Perm rows') :
  inOrder key rows = inOrder key rows'
  := by
  have hnodup' : (rows'.map key).Nodup := (h.map key).nodup_iff.mp hnodup
  apply List.Perm.eq_of_pairwise _ (pairwise_inOrder key hnodup) (pairwise_inOrder key hnodup')
  · exact (perm_inOrder key rows).trans (h.trans (perm_inOrder key rows').symm)
  · intro a b _ _ hab hba
    exact absurd hba (lt_asymm hab)

/-- Rows that are the same up to order are the same in order, if no two have one key. -/
theorem inOrder_congr_of_injective (hkey : Function.Injective key) {rows rows' : List α}
    (h : rows.Perm rows') :
  inOrder key rows = inOrder key rows'
  := by
  apply List.Perm.eq_of_pairwise _
    (List.pairwise_insertionSort (fun a b : α => key a ≤ key b) rows)
    (List.pairwise_insertionSort (fun a b : α => key a ≤ key b) rows')
  · exact (perm_inOrder key rows).trans (h.trans (perm_inOrder key rows').symm)
  · intro a b _ _ hab hba
    exact hkey (le_antisymm hab hba)

/-- Rows that are the same up to order have the same keys in order. -/
theorem map_key_inOrder {rows rows' : List α} (h : rows.Perm rows') :
  (inOrder key rows).map key = (inOrder key rows').map key
  := by
  have hsorted : ∀ rows : List α, ((inOrder key rows).map key).Pairwise (· ≤ ·) := by
    intro rows
    apply List.pairwise_map.mpr
    apply List.pairwise_insertionSort (fun a b : α => key a ≤ key b) rows
  apply List.Perm.eq_of_pairwise _ (hsorted rows) (hsorted rows')
  · apply List.Perm.map
    exact (perm_inOrder key rows).trans (h.trans (perm_inOrder key rows').symm)
  · intro a b _ _
    apply le_antisymm

/-- Rows under one key stay in the order they are given in. -/
theorem filter_inOrder (rows : List α) (k : κ) :
  (inOrder key rows).filter (fun row => key row = k) = rows.filter (fun row => key row = k)
  := by
  have hsame : (rows.filter (fun row => key row = k)).Pairwise (fun a b => key a ≤ key b) := by
    apply List.pairwise_of_forall_mem_list
    intro a ha b hb
    rw [of_decide_eq_true (List.mem_filter.mp ha).2, of_decide_eq_true (List.mem_filter.mp hb).2]
  have hkept := (List.sublist_insertionSort hsame List.filter_sublist).filter
    (fun row => key row = k)
  rw [List.filter_filter] at hkept
  simp only [Bool.and_self] at hkept
  apply (hkept.eq_of_length _).symm
  apply ((perm_inOrder key rows).filter _).length_eq.symm

section Columns

variable {β : Type*} {key} {column : α → β} {rows rows' : List α}

omit [LinearOrder κ] in
/-- A column that the key determines is the same in rows with the same keys. -/
theorem map_eq_of_map_key (hkeys : rows.map key = rows'.map key)
    (hcolumn : ∀ row ∈ rows, ∀ row' ∈ rows', key row = key row' → column row = column row') :
  rows.map column = rows'.map column
  := by
  induction rows generalizing rows' with
  | nil => rw [List.map_eq_nil_iff.mp hkeys.symm]
  | cons row rows ih =>
      obtain ⟨row', rows', rfl, hrow, hrows⟩ := List.map_eq_cons_iff.mp hkeys.symm
      rw [List.map_cons, List.map_cons,
        hcolumn row List.mem_cons_self row' List.mem_cons_self hrow.symm]
      congr 1
      apply ih hrows.symm
      intro other hother other' hother'
      apply hcolumn other (List.mem_cons_of_mem _ hother) other' (List.mem_cons_of_mem _ hother')

/-- Rows with the same keys and the same column have the same column under each key. -/
theorem map_filter_eq (hkeys : rows.map key = rows'.map key)
    (hcolumn : rows.map column = rows'.map column) (k : κ) :
  (rows.filter (fun row => key row = k)).map column
    = (rows'.filter (fun row => key row = k)).map column
  := by
  induction rows generalizing rows' with
  | nil => rw [List.map_eq_nil_iff.mp hkeys.symm]
  | cons row rows ih =>
      obtain ⟨row', rows', rfl, hrow, hrows⟩ := List.map_eq_cons_iff.mp hkeys.symm
      obtain ⟨hsame, hrest⟩ := List.cons.inj hcolumn
      rw [List.filter_cons, List.filter_cons, hrow]
      split
      · rw [List.map_cons, List.map_cons, hsame, ih hrows.symm hrest]
      · apply ih hrows.symm hrest

end Columns

/-- Rows that are the same up to order have a column in one order exactly when it is the same for
rows under one key, whatever the order is. -/
theorem map_inOrder_eq_iff {β : Type*} {column : α → β} {rows : List α} :
  (∀ rows', rows.Perm rows' → (inOrder key rows).map column = (inOrder key rows').map column)
    ↔ ∀ row ∈ rows, ∀ row' ∈ rows, key row = key row' → column row = column row'
  := by
  classical
  constructor
  · intro h row hrow row' hrow' hkey
    by_cases hne : row' = row
    · rw [hne]
    -- one of the two is put before the other, and then behind it
    have hrest : row' ∈ rows.erase row := (List.mem_erase_of_ne hne).mpr hrow'
    have hfirst : rows.Perm (row :: row' :: (rows.erase row).erase row') :=
      (List.perm_cons_erase hrow).trans ((List.perm_cons_erase hrest).cons row)
    have hsecond : rows.Perm (row' :: row :: (rows.erase row).erase row') :=
      hfirst.trans (List.Perm.swap _ _ _)
    have hsame := map_filter_eq (k := key row)
      ((map_key_inOrder key hfirst).symm.trans (map_key_inOrder key hsecond))
      ((h _ hfirst).symm.trans (h _ hsecond))
    rw [filter_inOrder, filter_inOrder] at hsame
    simpa [hkey] using congrArg List.head? hsame
  · intro h rows' hperm
    apply map_eq_of_map_key (map_key_inOrder key hperm)
    intro row hrow row' hrow'
    apply h row ((mem_inOrder key).mp hrow) row'
    apply hperm.mem_iff.mpr ((mem_inOrder key).mp hrow')

/-- The rows past a later key are among those past an earlier one. -/
theorem past_past (rows : List α) {after later : κ} (h : after < later) :
  past key (past key rows after) later = past key rows later
  := by
  simp only [past, List.filter_filter]
  apply List.filter_congr
  intro row _
  by_cases hrow : later < key row
  · simp [hrow, h.trans hrow]
  · simp [hrow]

/-- A map that keeps the keys keeps the order. -/
theorem map_inOrder {f : α → α} (hf : ∀ row, key (f row) = key row) (rows : List α) :
  (inOrder key rows).map f = inOrder key (rows.map f)
  := by
  apply List.map_insertionSort
  intro a _ b _
  rw [hf, hf]

theorem nodup_past {rows : List α} (h : (rows.map key).Nodup) (after : κ) :
  ((past key rows after).map key).Nodup
  := (List.filter_sublist.map key).nodup h

/-! ### The rows past the last of a page -/

/-- Past the last row of a first part of rows in order lies the rest. -/
theorem past_getLast {page rest : List α} {last : α}
    (h : (page ++ rest).Pairwise (fun a b => key a < key b)) (hlast : page.getLast? = some last) :
  past key (page ++ rest) (key last) = rest
  := by
  obtain ⟨front, rfl⟩ := List.getLast?_eq_some_iff.mp hlast
  obtain ⟨hpage, -, hacross⟩ := List.pairwise_append.mp h
  obtain ⟨-, -, hfront⟩ := List.pairwise_append.mp hpage
  rw [past, List.filter_append, List.filter_eq_nil_iff.mpr, List.nil_append,
    List.filter_eq_self.mpr]
  · intro row hrow
    exact decide_eq_true (hacross last (by simp) row hrow)
  · intro row hrow
    simp only [decide_eq_true_eq, not_lt]
    rcases List.mem_append.mp hrow with hrow | hrow
    · exact le_of_lt (hfront row hrow last (by simp))
    · rw [List.mem_singleton.mp hrow]

/-- The rows past the last row of a page that was fetched are those that were past it and
not on the page. -/
theorem inOrder_past_getLast {limit : ℕ} {rows : List α} {after : κ} {last : α}
    (h : (rows.map key).Nodup)
    (hlast : (fetch key limit rows after).getLast? = some last) :
  inOrder key (past key rows (key last))
    = (inOrder key (past key rows after)).drop limit
  := by
  have hsorted := pairwise_inOrder key (nodup_past key h after)
  have hafter : after < key last := by
    have hmem : last ∈ fetch key limit rows after := List.mem_of_getLast? hlast
    have hmem' := (mem_inOrder key).mp (List.mem_of_mem_take hmem)
    exact ((mem_past key).mp hmem').2
  have hsplit := List.take_append_drop limit (inOrder key (past key rows after))
  rw [← hsplit] at hsorted
  have hrest := past_getLast key hsorted hlast
  rw [hsplit] at hrest
  have hperm : (past key (past key rows after) (key last)).Perm
      (past key (inOrder key (past key rows after)) (key last)) :=
    ((perm_inOrder key (past key rows after)).filter _).symm
  rw [← past_past key rows hafter, inOrder_congr key (nodup_past key (nodup_past key h after) (key last)) hperm, hrest]
  apply inOrder_of_pairwise
  exact (List.pairwise_append.mp hsorted).2.1

/-- A page that has a last row leaves fewer rows past it. -/
theorem length_past_lt {limit : ℕ} {rows : List α} {after : κ} {last : α}
    (hlast : (fetch key limit rows after).getLast? = some last) :
  (past key rows (key last)).length < (past key rows after).length
  := by
  have hmem := List.mem_of_mem_take (List.mem_of_getLast? hlast)
  obtain ⟨hrow, hafter⟩ := (mem_past key).mp ((mem_inOrder key).mp hmem)
  rw [← past_past key rows hafter]
  apply List.length_filter_lt_length_iff_exists.mpr
  use last, (mem_past key).mpr ⟨hrow, hafter⟩
  simp

/-! ### All pages -/

/-- The pages of the rows past `after`, one after another: each is fetched from the last key
of the one before, and one that is short of the limit is the last. -/
def scan (limit : ℕ) (rows : List α) (after : κ) : List α :=
  let page := fetch key limit rows after
  if page.length < limit then
    page
  else
    match _hlast : page.getLast? with
    | none => page
    | some last => page ++ scan limit rows (key last)
termination_by (past key rows after).length
decreasing_by exact length_past_lt key _hlast

/-- Scanning reads the rows past the first key, each once and in key order. -/
theorem scan_eq {limit : ℕ} (hlimit : 0 < limit) {rows : List α} (h : (rows.map key).Nodup)
    (after : κ) :
  scan key limit rows after = inOrder key (past key rows after)
  := by
  induction after using scan.induct key limit rows with
  | case1 after page hshort =>
      rw [scan, if_pos hshort]
      apply List.take_of_length_le
      have hlength : page.length
          = min limit (inOrder key (past key rows after)).length := List.length_take
      omega
  | case2 after page hfull hlast =>
      have hnil : page = [] := List.getLast?_eq_none_iff.mp hlast
      rw [hnil] at hfull
      exact absurd hlimit hfull
  | case3 after page hfull last hlast ih =>
      rw [scan, if_neg hfull]
      split
      · rename_i hnone
        rw [hlast] at hnone
        cases hnone
      · rename_i last' hlast'
        rw [hlast] at hlast'
        cases hlast'
        rw [ih, inOrder_past_getLast key h hlast]
        exact List.take_append_drop limit _

end Paging
