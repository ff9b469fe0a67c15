import Mathlib.Data.Int.Basic
import Mathlib.Data.List.Basic
import Mathlib.Tactic.Common

/-!
# Uniquely readable texts

When a text is written in front of another, what can be read off the whole? A word over an
alphabet is cut off by the first symbol outside the alphabet (`word_append_inj`). A sequence
of code words is read back one word at a time, if no code word is the beginning of another
and a symbol that begins no code word stands behind the sequence (`flatMap_append_inj`).
-/

universe u v

namespace Readable

variable {α : Type u} {β : Type v}

/-- A text that does not go on with a symbol of an alphabet. -/
def EndsAt (alphabet : β → Prop) (rest : List β) : Prop :=
  ∀ b ∈ rest.head?, ¬alphabet b

/-- A word over an alphabet is determined by a text it begins, if the alphabet ends there. -/
theorem word_append_inj {alphabet : β → Prop} {word word' rest rest' : List β}
    (hword : ∀ b ∈ word, alphabet b) (hword' : ∀ b ∈ word', alphabet b)
    (hrest : EndsAt alphabet rest) (hrest' : EndsAt alphabet rest')
    (h : word ++ rest = word' ++ rest') :
  word = word' ∧ rest = rest'
  := by
  induction word generalizing word' with
  | nil =>
      cases word' with
      | nil => exact ⟨rfl, h⟩
      | cons b word' =>
          have hb : b ∈ rest.head? := by
            rw [← List.nil_append rest, h]
            rfl
          exact absurd (hword' b List.mem_cons_self) (hrest b hb)
  | cons b word ih =>
      cases word' with
      | nil =>
          have hb : b ∈ rest'.head? := by
            rw [← List.nil_append rest', ← h]
            rfl
          exact absurd (hword b List.mem_cons_self) (hrest' b hb)
      | cons b' word' =>
          rw [List.cons_append, List.cons_append, List.cons.injEq] at h
          obtain ⟨rfl, h⟩ := h
          obtain ⟨rfl, hsame⟩ := ih (List.forall_mem_cons.mp hword).2
            (List.forall_mem_cons.mp hword').2 h
          exact ⟨rfl, hsame⟩

/-- No code word begins another, and none begins with the stop symbol. -/
structure PrefixCode (code : α → List β) (stop : β) : Prop where
  determined : ∀ {a a' : α} {rest rest' : List β}, code a ++ rest = code a' ++ rest' → a = a'
  stops : ∀ {a : α} {rest rest' : List β}, code a ++ rest ≠ stop :: rest'

/-- A sequence of code words with the stop symbol behind it is determined by a text it
begins. -/
theorem PrefixCode.flatMap_append_inj {code : α → List β} {stop : β}
    (hcode : PrefixCode code stop) {as as' : List α} {rest rest' : List β}
    (h : as.flatMap code ++ stop :: rest = as'.flatMap code ++ stop :: rest') :
  as = as' ∧ rest = rest'
  := by
  induction as generalizing as' with
  | nil =>
      cases as' with
      | nil => exact ⟨rfl, (List.cons.inj h).2⟩
      | cons a as' =>
          rw [List.flatMap_cons, List.append_assoc] at h
          exact absurd h.symm hcode.stops
  | cons a as ih =>
      cases as' with
      | nil =>
          rw [List.flatMap_cons, List.append_assoc] at h
          exact absurd h hcode.stops
      | cons a' as' =>
          rw [List.flatMap_cons, List.flatMap_cons, List.append_assoc, List.append_assoc] at h
          obtain rfl := hcode.determined h
          obtain ⟨rfl, hsame⟩ := ih (List.append_cancel_left h)
          exact ⟨rfl, hsame⟩

/-! ### Decimal texts -/

/-- The decimal text of a natural number determines it. -/
theorem natText_inj {m n : ℕ} :
  toString m = toString n ↔ m = n
  := by
  constructor
  · intro h
    have hdigits := congrArg String.toList h
    simp only [Nat.toString_eq_repr, Nat.toList_repr] at hdigits
    rw [← Nat.ofDigitChars_ten_toDigits (n := m), hdigits, Nat.ofDigitChars_ten_toDigits]
  · rintro rfl
    rfl

/-- A decimal text has digits, behind a minus sign if the number is negative. -/
theorem toList_intText (n : ℤ) :
  (toString n).toList
    = if 0 ≤ n then Nat.toDigits 10 n.toNat else '-' :: Nat.toDigits 10 (-n).toNat
  := by
  rw [Int.toString_eq_repr, Int.repr_eq_if]
  split
  · rw [Nat.toList_repr]
  · rw [String.toList_append, Nat.toList_repr]
    rfl

theorem isDigit_of_mem_intText {n : ℤ} {c : Char} (h : c ∈ (toString n).toList) :
  c.isDigit = true ∨ c = '-'
  := by
  rw [toList_intText] at h
  split at h
  · exact Or.inl (Nat.isDigit_of_mem_toDigits (by decide) (by decide) h)
  · rcases List.mem_cons.mp h with rfl | h
    · exact Or.inr rfl
    · exact Or.inl (Nat.isDigit_of_mem_toDigits (by decide) (by decide) h)

/-- A natural number's text does not begin with a minus sign. -/
theorem toDigits_ne_minus {n : ℕ} {text : List Char} :
  Nat.toDigits 10 n ≠ '-' :: text
  := by
  intro h
  have hdigit : ('-').isDigit = true := by
    apply Nat.isDigit_of_mem_toDigits (b := 10) (n := n) (by decide) (by decide)
    rw [h]
    apply List.mem_cons_self
  cases hdigit

/-- The decimal text of an integer determines it. -/
theorem intText_inj {m n : ℤ} :
  toString m = toString n ↔ m = n
  := by
  constructor
  · intro h
    have hdigits := congrArg String.toList h
    rw [toList_intText, toList_intText] at hdigits
    have hvalue : ∀ {k l : ℕ}, Nat.toDigits 10 k = Nat.toDigits 10 l → k = l := by
      intro k l hkl
      rw [← Nat.ofDigitChars_ten_toDigits (n := k), hkl, Nat.ofDigitChars_ten_toDigits]
    split at hdigits
    · split at hdigits
      · have heq := hvalue hdigits
        omega
      · exact absurd hdigits toDigits_ne_minus
    · split at hdigits
      · exact absurd hdigits.symm toDigits_ne_minus
      · have heq := hvalue (List.cons.inj hdigits).2
        omega
  · rintro rfl
    rfl

end Readable
