import Mathlib.Data.List.Basic
import Mathlib.Tactic.Common

/-!
# Interleaved threads

Any number of threads over a shared state. A thread stands at a point, and a move takes the
shared state and the thread's point to the next ones; the other threads stay where they are.
-/

universe u v w

/-- The shared state, and the points the threads stand at. -/
structure Threads (Shared : Type u) (Point : Type v) where
  shared : Shared
  points : List Point

namespace Threads

variable {Shared : Type u} {Point : Type v} {Move : Type w}

/-- The threads after one of them has made a move, if there is such a thread and it can. -/
def advance (move : Shared → Point → Move → Option (Shared × Point))
    (threads : Threads Shared Point) (i : ℕ) (m : Move) : Option (Threads Shared Point) :=
  match threads.points[i]? with
  | none => none
  | some point =>
    (move threads.shared point m).map (fun next => ⟨next.1, threads.points.set i next.2⟩)

/-- The threads with one more. -/
def start (threads : Threads Shared Point) (point : Point) : Threads Shared Point :=
  { threads with points := threads.points ++ [point] }

theorem advance_eq_some {move : Shared → Point → Move → Option (Shared × Point)}
    {threads threads' : Threads Shared Point} {i : ℕ} {m : Move} :
  threads.advance move i m = some threads'
    ↔ ∃ point shared' point', threads.points[i]? = some point
        ∧ move threads.shared point m = some (shared', point')
        ∧ threads' = ⟨shared', threads.points.set i point'⟩
  := by
  rw [advance]
  cases hpoint : threads.points[i]? with
  | none => simp
  | some point =>
      simp only [Option.map_eq_some_iff, Prod.exists, Option.some.injEq, exists_and_left,
        exists_eq_left']
      constructor
      · rintro ⟨shared', point', hmove, rfl⟩
        use shared', point', hmove
      · rintro ⟨shared', point', hmove, rfl⟩
        use shared', point', hmove

/-- Where the threads stand after one of them has moved. -/
theorem getElem?_set_eq_some {points : List Point} {i j : ℕ} {p p' q : Point}
    (h : points[i]? = some p) :
  (points.set i p')[j]? = some q ↔ (j = i ∧ q = p') ∨ (j ≠ i ∧ points[j]? = some q)
  := by
  obtain ⟨hlt, -⟩ := List.getElem?_eq_some_iff.mp h
  by_cases hij : j = i
  · rw [hij, List.getElem?_set_self hlt]
    simp only [Option.some.injEq, true_and, ne_eq, not_true_eq_false, false_and, or_false]
    apply eq_comm
  · rw [List.getElem?_set_ne (Ne.symm hij)]
    simp only [hij, false_and, ne_eq, not_false_eq_true, true_and, false_or]

/-- Where the threads stand after one was started. -/
theorem getElem?_start_eq_some {points : List Point} {j : ℕ} {p q : Point} :
  (points ++ [p])[j]? = some q ↔ points[j]? = some q ∨ (j = points.length ∧ q = p)
  := by
  rw [List.getElem?_append]
  split
  · rename_i hlt
    constructor
    · intro h
      left
      apply h
    · rintro (h | ⟨rfl, -⟩)
      · apply h
      · exact absurd hlt (Nat.lt_irrefl _)
  · rename_i hge
    have hnone : points[j]? = none := by
      rw [List.getElem?_eq_none_iff]
      omega
    rw [hnone, List.getElem?_singleton]
    constructor
    · intro h
      split at h
      · right
        rename_i hzero
        constructor
        · omega
        · apply (Option.some.inj h).symm
      · cases h
    · rintro (h | ⟨rfl, rfl⟩)
      · cases h
      · simp

/-- A property of every thread holds after a move if it holds of the moved thread and no other
thread loses it. -/
theorem forall_set {points : List Point} {i : ℕ} {p p' : Point} {P Q : Point → Prop}
    (hi : points[i]? = some p) (hall : ∀ (j : ℕ) q, points[j]? = some q → P q) (hmoved : Q p')
    (hothers : ∀ (j : ℕ) q, j ≠ i → points[j]? = some q → P q → Q q) :
  ∀ (j : ℕ) q, (points.set i p')[j]? = some q → Q q
  := by
  intro j q hj
  obtain ⟨rfl, rfl⟩ | ⟨hne, hj⟩ := (getElem?_set_eq_some hi).mp hj
  · apply hmoved
  · apply hothers j q hne hj (hall j q hj)

/-- A relation between any two threads holds after a move if it holds between the moved thread
and every other. -/
theorem pairwise_set {points : List Point} {i : ℕ} {p p' : Point} {R : Point → Point → Prop}
    (hsymm : ∀ q q', R q q' → R q' q) (hi : points[i]? = some p)
    (hall : ∀ (j k : ℕ) q q', j ≠ k → points[j]? = some q → points[k]? = some q' → R q q')
    (hmoved : ∀ (j : ℕ) q, j ≠ i → points[j]? = some q → R p' q) :
  ∀ (j k : ℕ) q q', j ≠ k → (points.set i p')[j]? = some q → (points.set i p')[k]? = some q' → R q q'
  := by
  intro j k q q' hne hj hk
  obtain ⟨rfl, rfl⟩ | ⟨hji, hj'⟩ := (getElem?_set_eq_some hi).mp hj
  · obtain ⟨rfl, rfl⟩ | ⟨hki, hk'⟩ := (getElem?_set_eq_some hi).mp hk
    · exact absurd rfl hne
    · apply hmoved k q' hki hk'
  · obtain ⟨rfl, rfl⟩ | ⟨hki, hk'⟩ := (getElem?_set_eq_some hi).mp hk
    · apply hsymm
      apply hmoved j q hji hj'
    · apply hall j k q q' hne hj' hk'

/-- A thread other than the moved one stands where it stood. -/
theorem getElem?_set_of_ne {points : List Point} {i j : ℕ} {p' q : Point} (hne : j ≠ i)
    (h : points[j]? = some q) :
  (points.set i p')[j]? = some q
  := by
  rw [List.getElem?_set_ne (Ne.symm hne)]
  apply h

/-- The moved thread stands at its next point. -/
theorem getElem?_set_self {points : List Point} {i : ℕ} {p p' : Point}
    (h : points[i]? = some p) :
  (points.set i p')[i]? = some p'
  := by
  apply (getElem?_set_eq_some h).mpr
  left
  constructor
  · rfl
  · rfl

/-- A move changes how many threads there are of a kind by the thread that moves. -/
theorem countP_set {points : List Point} {i : ℕ} {p : Point} (p' : Point) (kind : Point → Bool)
    (h : points[i]? = some p) :
  (points.set i p').countP kind + (if kind p then 1 else 0)
    = points.countP kind + (if kind p' then 1 else 0)
  := by
  obtain ⟨hlt, hget⟩ := List.getElem?_eq_some_iff.mp h
  rw [List.countP_set hlt, hget]
  have hone : (if kind p then 1 else 0) ≤ points.countP kind := by
    split
    · rename_i hkind
      apply List.countP_pos_iff.mpr
      use p, List.mem_of_getElem? h
    · apply Nat.zero_le
  omega

/-- Two threads of a kind are one if the kind has no more than one. -/
theorem eq_of_countP_le_one {points : List Point} {kind : Point → Bool} {i j : ℕ} {p q : Point}
    (hone : points.countP kind ≤ 1) (hi : points[i]? = some p) (hj : points[j]? = some q)
    (hp : kind p = true) (hq : kind q = true) :
  i = j
  := by
  induction points generalizing i j with
  | nil => cases hi
  | cons point points ih =>
      have hnone : ∀ {k : ℕ} {r}, points[k]? = some r → kind r = true → kind point = true →
          False := by
        intro k r hk hr hpoint
        rw [List.countP_cons_of_pos hpoint] at hone
        have hpos := List.countP_pos_iff.mpr ⟨r, List.mem_of_getElem? hk, hr⟩
        omega
      cases i with
      | zero =>
          cases j with
          | zero => rfl
          | succ j =>
              cases hi
              cases hnone hj hq hp
      | succ i =>
          cases j with
          | zero =>
              cases hj
              cases hnone hi hp hq
          | succ j =>
              rw [ih _ hi hj]
              apply Nat.le_trans _ hone
              rw [List.countP_cons]
              apply Nat.le_add_right

/-! ### What threads have put out -/

section Output

variable {Item : Type*} {out : Point → List Item} {points : List Point} {i j : ℕ} {p p' q : Point}

/-- A thread whose output stays the same leaves the output of all as it is. -/
theorem flatMap_set_of_eq (h : points[i]? = some p) (hout : out p' = out p) :
  (points.set i p').flatMap out = points.flatMap out
  := by
  induction points generalizing i with
  | nil => rfl
  | cons point points ih =>
      cases i with
      | zero =>
          cases h
          rw [List.set_cons_zero, List.flatMap_cons, List.flatMap_cons, hout]
      | succ i => rw [List.set_cons_succ, List.flatMap_cons, List.flatMap_cons, ih h]

/-- What a thread puts out more is more in the output of all, up to order. -/
theorem flatMap_set {more : List Item} (h : points[i]? = some p) (hout : out p' = out p ++ more) :
  ((points.set i p').flatMap out).Perm (points.flatMap out ++ more)
  := by
  induction points generalizing i with
  | nil => cases h
  | cons point points ih =>
      cases i with
      | zero =>
          cases h
          rw [List.set_cons_zero, List.flatMap_cons, List.flatMap_cons, hout, List.append_assoc,
            List.append_assoc]
          apply List.Perm.append_left
          apply List.perm_append_comm
      | succ i =>
          rw [List.set_cons_succ, List.flatMap_cons, List.flatMap_cons, List.append_assoc]
          apply List.Perm.append_left
          apply ih h

/-- A thread that is started with no output leaves the output of all as it is. -/
theorem flatMap_start (hout : out p = []) :
  (points ++ [p]).flatMap out = points.flatMap out
  := by
  rw [List.flatMap_append, List.flatMap_singleton, hout, List.append_nil]

/-- A relation between any two items of the output of all holds between those of two
threads. -/
theorem of_pairwise_flatMap {R : Item → Item → Prop} (hsymm : ∀ x y, R x y → R y x)
    (h : (points.flatMap out).Pairwise R) (hij : i ≠ j) (hi : points[i]? = some p)
    (hj : points[j]? = some q) {x y : Item} (hx : x ∈ out p) (hy : y ∈ out q) :
  R x y
  := by
  have hthreads := List.pairwise_iff_getElem.mp (List.pairwise_flatMap.mp h).2
  obtain ⟨hilt, rfl⟩ := List.getElem?_eq_some_iff.mp hi
  obtain ⟨hjlt, rfl⟩ := List.getElem?_eq_some_iff.mp hj
  obtain hlt | hlt := Nat.lt_or_gt_of_ne hij
  · apply hthreads i j hilt hjlt hlt x hx y hy
  · apply hsymm
    apply hthreads j i hjlt hilt hlt y hy x hx

end Output

end Threads
