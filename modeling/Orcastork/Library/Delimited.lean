import Mathlib.Data.List.Basic
import Mathlib.Order.Cover
import Mathlib.Tactic.Common

/-!
# Words joined by a delimiter

A word put together from parts with a delimiter between them determines the parts that do
not contain the delimiter: the first of two (`append_cons_inj`) and the last
(`append_cons_inj_right`). In lexicographic order, the words that begin with a given part and
the delimiter are those between that part followed by the delimiter and that part followed
by the next letter (`between_iff`).
-/

universe u

namespace Delimited

variable {α : Type u} {d : α}

/-- A word is cut at its first delimiter in one way. -/
theorem append_cons_inj {p q r s : List α} (hp : d ∉ p) (hq : d ∉ q)
    (h : p ++ d :: r = q ++ d :: s) :
  p = q ∧ r = s
  := by
  induction p generalizing q with
  | nil =>
      cases q with
      | nil => simpa using h
      | cons b q =>
          simp only [List.nil_append, List.cons_append, List.cons.injEq] at h
          rw [h.1] at hq
          exact absurd List.mem_cons_self hq
  | cons a p ih =>
      cases q with
      | nil =>
          simp only [List.nil_append, List.cons_append, List.cons.injEq] at h
          rw [← h.1] at hp
          exact absurd List.mem_cons_self hp
      | cons b q =>
          simp only [List.cons_append, List.cons.injEq] at h
          simp only [List.mem_cons, not_or] at hp hq
          obtain ⟨hpq, hrs⟩ := ih hp.2 hq.2 h.2
          rw [h.1, hpq, hrs]
          exact ⟨rfl, rfl⟩

/-- A word is cut at its last delimiter in one way. -/
theorem append_cons_inj_right {p q r s : List α} (hr : d ∉ r) (hs : d ∉ s)
    (h : p ++ d :: r = q ++ d :: s) :
  p = q ∧ r = s
  := by
  have hreverse := congrArg List.reverse h
  simp only [List.reverse_append, List.reverse_cons, List.append_assoc, List.cons_append,
    List.nil_append] at hreverse
  obtain ⟨hrs, hpq⟩ := append_cons_inj (by simpa using hr) (by simpa using hs) hreverse
  exact ⟨List.reverse_injective hpq, List.reverse_injective hrs⟩

/-- Two words cut at a delimiter are the same when they are cut alike, or when the one is cut at
a delimiter the other has in a part. -/
theorem append_cons_eq_iff {p q r s : List α} :
  p ++ d :: r = q ++ d :: s
    ↔ (p = q ∧ r = s) ∨ (∃ t, q = p ++ d :: t ∧ r = t ++ d :: s)
      ∨ ∃ t, p = q ++ d :: t ∧ s = t ++ d :: r
  := by
  constructor
  · intro h
    rw [List.append_eq_append_iff] at h
    obtain ⟨between, hq, hrest⟩ | ⟨between, hp, hrest⟩ := h
    · cases between with
      | nil =>
          left
          rw [List.nil_append, List.cons.injEq] at hrest
          rw [hq, List.append_nil, hrest.2]
          constructor
          · rfl
          · rfl
      | cons a t =>
          right
          left
          rw [List.cons_append, List.cons.injEq] at hrest
          use t
          rw [hq, ← hrest.1, hrest.2]
          constructor
          · rfl
          · rfl
    · cases between with
      | nil =>
          left
          rw [List.nil_append, List.cons.injEq] at hrest
          rw [hp, List.append_nil, hrest.2]
          constructor
          · rfl
          · rfl
      | cons a t =>
          right
          right
          rw [List.cons_append, List.cons.injEq] at hrest
          use t
          rw [hp, ← hrest.1, hrest.2]
          constructor
          · rfl
          · rfl
  · rintro (⟨rfl, rfl⟩ | ⟨t, rfl, rfl⟩ | ⟨t, rfl, rfl⟩)
    · rfl
    · rw [List.append_assoc, List.cons_append]
    · rw [List.append_assoc, List.cons_append]

/-- A letter of joined words is the delimiter or stands in a word. -/
theorem mem_intercalate {words : List (List α)} {a : α} (h : a ∈ [d].intercalate words) :
  a = d ∨ ∃ word ∈ words, a ∈ word
  := by
  induction words with
  | nil => exact absurd h List.not_mem_nil
  | cons word words ih =>
      cases words with
      | nil =>
          rw [List.intercalate_singleton] at h
          exact Or.inr ⟨word, List.mem_cons_self, h⟩
      | cons next words =>
          rw [List.intercalate_cons_cons, List.mem_append, List.mem_append,
            List.mem_singleton] at h
          obtain (h | h) | h := h
          · exact Or.inr ⟨word, List.mem_cons_self, h⟩
          · exact Or.inl h
          · obtain h | ⟨other, hother, ha⟩ := ih h
            · exact Or.inl h
            · exact Or.inr ⟨other, List.mem_cons_of_mem _ hother, ha⟩

/-- Words joined by a delimiter none of them contains are determined. -/
theorem intercalate_inj {words words' : List (List α)}
    (h : ∀ word ∈ words, d ∉ word) (h' : ∀ word ∈ words', d ∉ word)
    (hne : words ≠ []) (hne' : words' ≠ [])
    (hjoined : [d].intercalate words = [d].intercalate words') :
  words = words'
  := by
  classical
  rw [← List.splitOn_intercalate d h hne, hjoined, List.splitOn_intercalate d h' hne']

/-- Lines that determine what they are about are about the same things. -/
theorem map_inj_of_determined {α β : Type*} {line line' : α → β} {same : α → Prop}
    {as as' : List α} (hline : ∀ a ∈ as, ∀ a' ∈ as', line a = line' a' → a = a' ∧ same a)
    (h : as.map line = as'.map line') :
  as = as' ∧ ∀ a ∈ as, same a
  := by
  induction as generalizing as' with
  | nil =>
      rw [List.map_nil, eq_comm, List.map_eq_nil_iff] at h
      rw [h]
      exact ⟨rfl, nofun⟩
  | cons a as ih =>
      obtain ⟨a', as', rfl, ha, has⟩ := List.map_eq_cons_iff.mp h.symm
      obtain ⟨rfl, hsame⟩ := hline a List.mem_cons_self a' List.mem_cons_self ha.symm
      have hrest : ∀ b ∈ as, ∀ b' ∈ as', line b = line' b' → b = b' ∧ same b := by
        intro b hb b' hb'
        apply hline b (List.mem_cons_of_mem _ hb) b' (List.mem_cons_of_mem _ hb')
      obtain ⟨rfl, hall⟩ := ih hrest has.symm
      exact ⟨rfl, List.forall_mem_cons.mpr ⟨hsame, hall⟩⟩

/-- Lists are told apart where they meet, if a property holds of all before and of none
after. -/
theorem append_inj_of_forall {p : α → Bool} {as as' bs bs' : List α}
    (has : ∀ a ∈ as, p a = true) (has' : ∀ a ∈ as', p a = true) (hbs : ∀ b ∈ bs, p b = false)
    (hbs' : ∀ b ∈ bs', p b = false) (h : as ++ bs = as' ++ bs') :
  as = as' ∧ bs = bs'
  := by
  have hkeep : ∀ {as bs : List α}, (∀ a ∈ as, p a = true) → (∀ b ∈ bs, p b = false) →
      (as ++ bs).filter p = as := by
    intro as bs has hbs
    rw [List.filter_append, List.filter_eq_self.mpr has, List.filter_eq_nil_iff.mpr
      (fun b hb => by rw [hbs b hb]; decide), List.append_nil]
  have hfirst : as = as' := by
    rw [← hkeep has hbs, h, hkeep has' hbs']
  subst hfirst
  exact ⟨rfl, List.append_cancel_left h⟩

section Order

variable [LinearOrder α]

/-- The words between a part with the delimiter and that part with the next letter are those
that go on after the part and the delimiter. -/
theorem between_iff {next : α} (hd : d ⋖ next) (p l : List α) :
  (p ++ [d] < l ∧ l < p ++ [next]) ↔ ∃ r, r ≠ [] ∧ l = p ++ d :: r
  := by
  induction p generalizing l with
  | nil =>
      cases l with
      | nil => simp
      | cons c l =>
          simp only [List.nil_append, List.cons_lt_cons_iff, List.not_lt_nil, and_false,
            or_false, List.cons.injEq]
          constructor
          · rintro ⟨hlow | ⟨rfl, hlong⟩, hhigh⟩
            · exact absurd hhigh (hd.2 hlow)
            · refine ⟨l, ?_, rfl, rfl⟩
              rintro rfl
              exact absurd hlong (List.not_lt_nil [])
          · rintro ⟨r, hr, rfl, rfl⟩
            cases l with
            | nil => exact absurd rfl hr
            | cons b l => exact ⟨Or.inr ⟨rfl, List.nil_lt_cons b l⟩, hd.lt⟩
  | cons a p ih =>
      cases l with
      | nil => simp
      | cons c l =>
          simp only [List.cons_append, List.cons_lt_cons_iff, List.cons.injEq]
          constructor
          · rintro ⟨hlow | ⟨rfl, hlow⟩, hhigh | ⟨heq, hhigh⟩⟩
            · exact absurd hhigh (lt_asymm hlow)
            · rw [heq] at hlow
              exact absurd hlow (lt_irrefl _)
            · exact absurd hhigh (lt_irrefl _)
            · obtain ⟨r, hr, rfl⟩ := (ih l).mp ⟨hlow, hhigh⟩
              exact ⟨r, hr, rfl, rfl⟩
          · rintro ⟨r, hr, rfl, rfl⟩
            obtain ⟨hlow, hhigh⟩ := (ih (p ++ d :: r)).mpr ⟨r, hr, rfl⟩
            exact ⟨Or.inr ⟨rfl, hlow⟩, Or.inr ⟨rfl, hhigh⟩⟩

end Order

end Delimited
