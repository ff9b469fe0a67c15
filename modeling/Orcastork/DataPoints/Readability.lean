import Orcastork.DataPoints.Canonical
import Orcastork.Library.Readable

/-!
# Readability of the canonical form

`repr` of a normalized value determines the value (`repr_inj`): a string literal is read back
escape by escape, a number up to the comma or the bracket behind it, and a tuple item by item.
Of the texts of floats it is used that they determine the float and look like no other
literal.
-/

namespace Orcastork

open Readable

/-! ### String literals -/

/-- The value of a hexadecimal digit. -/
def hexDigitValue (c : Char) : ℕ := if c.isDigit then c.toNat - 48 else c.toNat - 87

/-- The number that hexadecimal digits denote. -/
def hexValue (digits : List Char) : ℕ :=
  digits.foldl (fun value c => value * 16 + hexDigitValue c) 0

/-- The code point that an escape stands for, without its backslash. -/
def escaped : List Char → ℕ
  | [] => 0
  | c :: text =>
    if c = 't' then 9
    else if c = 'n' then 10
    else if c = 'r' then 13
    else if c = 'x' then hexValue (text.take 2)
    else if c = 'u' then hexValue (text.take 4)
    else if c = 'U' then hexValue (text.take 8)
    else c.toNat

/-- The code point that a text within a literal begins with. -/
def unescaped : List Char → ℕ
  | [] => 0
  | c :: text => if c = '\\' then escaped text else c.toNat

theorem hexDigitValue_digitChar {n : ℕ} (h : n < 16) :
  hexDigitValue (Nat.digitChar n) = n
  := by
  have hall : ∀ m : Fin 16, hexDigitValue (Nat.digitChar m) = m := by decide
  apply hall ⟨n, h⟩

namespace Literals

theorem length_hexDigits (width n : ℕ) :
  (hexDigits width n).length = width
  := by
  induction width generalizing n with
  | zero => rfl
  | succ width ih => rw [hexDigits, List.length_append, ih, List.length_singleton]

theorem hexValue_hexDigits (width n : ℕ) :
  hexValue (hexDigits width n) = n % 16 ^ width
  := by
  induction width generalizing n with
  | zero => rw [pow_zero, Nat.mod_one]; rfl
  | succ width ih =>
      have hlast : hexDigitValue (Nat.digitChar (n % 16)) = n % 16 :=
        hexDigitValue_digitChar (Nat.mod_lt n (by decide))
      rw [hexDigits, hexValue, List.foldl_append, ← hexValue, ih, List.foldl_cons, List.foldl_nil,
        hlast, pow_succ', Nat.mod_mul]
      omega

theorem hexValue_take {width n : ℕ} (h : n < 16 ^ width) (rest : List Char) :
  hexValue ((hexDigits width n ++ rest).take width) = n
  := by
  rw [List.take_append_of_le_length (Nat.le_of_eq (length_hexDigits width n).symm),
    List.take_of_length_le (Nat.le_of_eq (length_hexDigits width n)), hexValue_hexDigits,
    Nat.mod_eq_of_lt h]

/-- A quote is single or double. -/
def IsQuote (quote : Char) : Prop := quote = '\'' ∨ quote = '"'

theorem isQuote_quoteOf (s : String) :
  IsQuote (quoteOf s)
  := by
  rw [quoteOf]
  split
  · exact Or.inr rfl
  · exact Or.inl rfl

variable {literals : Literals} {quote : Char}

/-- Only a quote and the backslash are escaped by themselves. -/
theorem escaped_self {c : Char} (h : IsQuote c ∨ c = '\\') (rest : List Char) :
  escaped (c :: rest) = c.toNat
  := by
  rcases h with (rfl | rfl) | rfl
  · rfl
  · rfl
  · rfl

/-- Within a literal a character can be read back. -/
theorem unescaped_reprChar (hquote : IsQuote quote) (c : Char) (rest : List Char) :
  unescaped (literals.reprChar quote c ++ rest) = c.toNat
  := by
  have hbackslash : ∀ text, unescaped ('\\' :: text) = escaped text := fun text => rfl
  have hx : ∀ text, escaped ('x' :: text) = hexValue (text.take 2) := fun text => rfl
  have hu : ∀ text, escaped ('u' :: text) = hexValue (text.take 4) := fun text => rfl
  have hU : ∀ text, escaped ('U' :: text) = hexValue (text.take 8) := fun text => rfl
  rw [reprChar]
  split
  · rename_i hc
    rw [List.cons_append, hbackslash]
    apply escaped_self
    rcases hc with rfl | hc
    · exact Or.inl hquote
    · exact Or.inr hc
  · rename_i hplain
    have hne : c ≠ '\\' := fun hc => hplain (Or.inr hc)
    split
    · rename_i hc
      rw [hc]
      rfl
    split
    · rename_i hc
      rw [hc]
      rfl
    split
    · rename_i hc
      rw [hc]
      rfl
    split
    · rename_i hcontrol
      rw [List.cons_append, hbackslash, List.cons_append, hx, hexValue_take]
      omega
    split
    · rw [List.cons_append, unescaped, if_neg hne]
    split
    · rename_i hlatin
      rw [List.cons_append, hbackslash, List.cons_append, hx, hexValue_take]
      exact hlatin
    split
    · rename_i hbasic
      rw [List.cons_append, hbackslash, List.cons_append, hu, hexValue_take]
      exact hbasic
    · rw [List.cons_append, hbackslash, List.cons_append, hU, hexValue_take]
      have hvalid : c.toNat < 1114112 := by
        rcases c.valid with hlt | ⟨-, hlt⟩
        · exact Nat.lt_trans hlt (by decide)
        · exact hlt
      exact Nat.lt_trans hvalid (by decide)

/-- The characters of a literal are a code that stops at its quote. -/
theorem prefixCode_reprChar (hquote : IsQuote quote) :
  PrefixCode (literals.reprChar quote) quote
  := by
  constructor
  · intro c c' rest rest' h
    rw [← Char.toNat_inj, ← @unescaped_reprChar literals quote hquote c rest, h,
      unescaped_reprChar hquote]
  · intro c rest rest' h
    have hbackslash : ∀ text, '\\' :: text ≠ quote :: rest' := by
      rintro text htext
      rw [List.cons.injEq] at htext
      obtain ⟨rfl, -⟩ := htext
      rcases hquote with hquote | hquote
      · cases hquote
      · cases hquote
    rw [reprChar] at h
    split at h
    · exact hbackslash _ h
    · rename_i hplain
      split at h
      · exact hbackslash _ h
      split at h
      · exact hbackslash _ h
      split at h
      · exact hbackslash _ h
      split at h
      · exact hbackslash _ h
      split at h
      · exact hplain (Or.inl (List.cons.inj h).1)
      split at h
      · exact hbackslash _ h
      split at h
      · exact hbackslash _ h
      · exact hbackslash _ h

/-- A string literal determines its string. -/
theorem reprStr_append_inj {s s' : String} {rest rest' : List Char}
    (h : literals.reprStr s ++ rest = literals.reprStr s' ++ rest') :
  s = s' ∧ rest = rest'
  := by
  simp only [reprStr, List.cons_append, List.cons.injEq, List.append_assoc, List.nil_append] at h
  obtain ⟨hquote, htext⟩ := h
  rw [← hquote] at htext
  obtain ⟨hchars, hrest⟩ :=
    (prefixCode_reprChar (isQuote_quoteOf s)).flatMap_append_inj htext
  exact ⟨String.toList_injective hchars, hrest⟩

/-! ### Numbers -/

/-- The characters of the texts of numbers. -/
def IsNumeric (c : Char) : Prop := c ∈ "0123456789+-.einf".toList

instance : DecidablePred IsNumeric := fun c =>
  inferInstanceAs (Decidable (c ∈ "0123456789+-.einf".toList))

/-- The texts of floats determine them, and are no texts of other values: they are made of
the characters of numbers, and have a point, an exponent or the `n` of an infinity. -/
structure FloatTexts (literals : Literals) : Prop where
  injective : Function.Injective literals.reprFloat
  numeric : ∀ f, ∀ c ∈ (literals.reprFloat f).toList, IsNumeric c
  marked : ∀ f, ∃ c ∈ (literals.reprFloat f).toList, c = '.' ∨ c = 'e' ∨ c = 'n'

theorem isNumeric_of_isDigit {c : Char} (h : c.isDigit = true ∨ c = '-') :
  IsNumeric c
  := by
  rcases h with hdigit | rfl
  · obtain ⟨hle, hlt⟩ := Char.isDigit_iff_toNat.mp hdigit
    have hall : ∀ n : Fin 58, 48 ≤ n.val → IsNumeric (Char.ofNat n) := by decide
    rw [← Char.ofNat_toNat c]
    exact hall ⟨c.toNat, Nat.lt_succ_of_le hlt⟩ hle
  · decide

end Literals

namespace Hashed

/-- Whether a value is a tuple. -/
def IsTuple : Hashed → Prop
  | .nil => True
  | .cons _ _ => True
  | _ => False

/-- The tail of every tuple in a value is a tuple. -/
def Proper : Hashed → Prop
  | .cons head tail => head.Proper ∧ tail.Proper ∧ tail.IsTuple
  | _ => True

/-- Whether a value is an integer or a float. -/
def IsNumber : Hashed → Prop
  | .int _ => True
  | .float _ => True
  | _ => False

end Hashed

namespace Literals

variable {literals : Literals}

/-- The text of a number has characters of numbers only. -/
theorem isNumeric_of_mem_repr (hfloats : literals.FloatTexts) {number : Hashed}
    (h : number.IsNumber) :
  ∀ c ∈ literals.repr number, IsNumeric c
  := by
  cases number with
  | int value =>
      intro c hc
      apply isNumeric_of_isDigit (isDigit_of_mem_intText hc)
  | float value => exact hfloats.numeric value
  | _ => cases h

/-- The text of an integer is no text of a float. -/
theorem repr_int_ne_repr_float (hfloats : literals.FloatTexts) (n : ℤ) (f : PyFloat) :
  literals.repr (.int n) ≠ literals.repr (.float f)
  := by
  intro h
  rw [repr, repr] at h
  obtain ⟨c, hmem, hmark⟩ := hfloats.marked f
  rw [← h] at hmem
  rcases isDigit_of_mem_intText hmem with hdigit | hminus
  · rcases hmark with rfl | rfl | rfl
    · cases hdigit
    · cases hdigit
    · cases hdigit
  · rw [hminus] at hmark
    revert hmark
    decide

/-- The text of a number determines the number. -/
theorem repr_number_inj (hfloats : literals.FloatTexts) {number number' : Hashed}
    (h : number.IsNumber) (h' : number'.IsNumber)
    (heq : literals.repr number = literals.repr number') :
  number = number'
  := by
  cases number with
  | int value =>
      cases number' with
      | int value' =>
          rw [repr, repr] at heq
          rw [intText_inj.mp (String.toList_injective heq)]
      | float value' => exact absurd heq (repr_int_ne_repr_float hfloats value value')
      | _ => cases h'
  | float value =>
      cases number' with
      | int value' => exact absurd heq.symm (repr_int_ne_repr_float hfloats value' value)
      | float value' =>
          rw [repr, repr] at heq
          rw [hfloats.injective (String.toList_injective heq)]
      | _ => cases h'
  | _ => cases h

/-! ### Values -/

/-- What a literal is, as its first character shows. -/
inductive LiteralKind where
  | none
  | false
  | true
  | number
  | text
  | tuple
  deriving DecidableEq

/-- The kind of a literal that begins with a character. -/
def kindOf (c : Char) : LiteralKind :=
  if c = 'N' then .none
  else if c = 'F' then .false
  else if c = 'T' then .true
  else if c = '\'' ∨ c = '"' then .text
  else if c = '(' then .tuple
  else .number

/-- The kind of the literal of a value. -/
def literalKind : Hashed → LiteralKind
  | .none => .none
  | .bool false => .false
  | .bool true => .true
  | .int _ => .number
  | .float _ => .number
  | .str _ => .text
  | .nil => .tuple
  | .cons _ _ => .tuple

/-- The text of a tuple behind its first item. -/
def closing (literals : Literals) : Hashed → List Char
  | .nil => [',', ')']
  | tail => literals.reprTail tail

theorem repr_cons (head tail : Hashed) :
  literals.repr (.cons head tail) = '(' :: (literals.repr head ++ literals.closing tail)
  := by
  cases tail with
  | nil => rw [repr, closing]; rfl
  | _ => rw [repr, closing] <;> simp

theorem kindOf_numeric {c : Char} (h : IsNumeric c) :
  kindOf c = .number ∧ c ≠ ')'
  := by
  have hall :
      "0123456789+-.einf".toList.all (fun c => kindOf c = .number ∧ c ≠ ')') = true := by
    decide
  exact of_decide_eq_true (List.all_eq_true.mp hall c h)

/-- The first character of a literal shows what it is. -/
theorem exists_repr_eq_cons (hfloats : literals.FloatTexts) (hashed : Hashed) :
  ∃ c text, literals.repr hashed = c :: text ∧ kindOf c = literalKind hashed ∧ c ≠ ')'
  := by
  have hnumber : ∀ number : Hashed, number.IsNumber → literals.repr number ≠ [] →
      ∃ c text, literals.repr number = c :: text ∧ kindOf c = .number ∧ c ≠ ')' := by
    intro number hnumber hne
    obtain ⟨c, text, htext⟩ := List.exists_cons_of_ne_nil hne
    refine ⟨c, text, htext, kindOf_numeric ?_⟩
    apply isNumeric_of_mem_repr hfloats hnumber
    rw [htext]
    apply List.mem_cons_self
  cases hashed with
  | none => exact ⟨'N', _, rfl, rfl, by decide⟩
  | bool value =>
      cases value with
      | false => exact ⟨'F', _, rfl, rfl, by decide⟩
      | true => exact ⟨'T', _, rfl, rfl, by decide⟩
  | int value =>
      apply hnumber (.int value) trivial
      rw [repr, toList_intText]
      split
      · exact Nat.toDigits_ne_nil
      · exact List.cons_ne_nil _ _
  | float value =>
      apply hnumber (.float value) trivial
      obtain ⟨c, hmem, -⟩ := hfloats.marked value
      exact List.ne_nil_of_mem hmem
  | str value =>
      refine ⟨quoteOf value, _, rfl, ?_⟩
      rcases isQuote_quoteOf value with hquote | hquote
      · rw [hquote]
        exact ⟨rfl, by decide⟩
      · rw [hquote]
        exact ⟨rfl, by decide⟩
  | nil => exact ⟨'(', _, rfl, rfl, by decide⟩
  | cons head tail => exact ⟨'(', _, repr_cons head tail, rfl, by decide⟩

/-- Behind an item of a tuple stands a comma or a bracket. -/
theorem endsAt_reprTail (tail : Hashed) (rest : List Char) :
  EndsAt IsNumeric (literals.reprTail tail ++ rest)
  := by
  have hcomma : ∀ text, EndsAt IsNumeric (',' :: text) := by
    rintro text _ ⟨⟩
    decide
  have hbracket : ∀ text, EndsAt IsNumeric (')' :: text) := by
    rintro text _ ⟨⟩
    decide
  cases tail with
  | cons head tail => apply hcomma
  | _ => apply hbracket

theorem endsAt_closing (tail : Hashed) (rest : List Char) :
  EndsAt IsNumeric (literals.closing tail ++ rest)
  := by
  cases tail with
  | nil =>
      rintro _ ⟨⟩
      decide
  | _ => apply endsAt_reprTail

/-- Values whose literals begin one text are of one kind. -/
theorem literalKind_eq (hfloats : literals.FloatTexts) {hashed hashed' : Hashed}
    {rest rest' : List Char}
    (h : literals.repr hashed ++ rest = literals.repr hashed' ++ rest') :
  literalKind hashed = literalKind hashed'
  := by
  obtain ⟨c, text, htext, hkind, -⟩ := exists_repr_eq_cons hfloats hashed
  obtain ⟨c', text', htext', hkind', -⟩ := exists_repr_eq_cons hfloats hashed'
  rw [htext, htext', List.cons_append, List.cons_append, List.cons.injEq] at h
  rw [← hkind, ← hkind', h.1]

/-- What a literal, or the rest of a tuple's literal, determines. -/
structure Readable (literals : Literals) (hashed : Hashed) : Prop where
  literal : ∀ {hashed' : Hashed} {rest rest' : List Char}, hashed'.Proper →
    EndsAt IsNumeric rest → EndsAt IsNumeric rest' →
      literals.repr hashed ++ rest = literals.repr hashed' ++ rest' →
        hashed = hashed' ∧ rest = rest'
  tail : hashed.IsTuple → ∀ {tail' : Hashed} {rest rest' : List Char}, tail'.Proper →
    tail'.IsTuple → literals.reprTail hashed ++ rest = literals.reprTail tail' ++ rest' →
      hashed = tail' ∧ rest = rest'

/-- Behind the first item, the literal of a tuple determines the other items. -/
theorem closing_append_inj {tail tail' : Hashed} {rest rest' : List Char}
    (hreadable : literals.Readable tail) (htuple : tail.IsTuple) (hproper : tail'.Proper)
    (htuple' : tail'.IsTuple)
    (h : literals.closing tail ++ rest = literals.closing tail' ++ rest') :
  tail = tail' ∧ rest = rest'
  := by
  cases tail with
  | nil =>
      cases tail' with
      | nil => exact ⟨rfl, List.append_cancel_left h⟩
      | cons head' tail' => simp [closing, reprTail] at h
      | _ => cases htuple'
  | cons head tail =>
      cases tail' with
      | nil => simp [closing, reprTail] at h
      | cons head' tail' => exact hreadable.tail htuple hproper htuple' h
      | _ => cases htuple'
  | _ => cases htuple

/-- An empty tuple and one with an item have different literals. -/
theorem repr_nil_append_ne (hfloats : literals.FloatTexts) {head tail : Hashed}
    {rest rest' : List Char} :
  literals.repr .nil ++ rest ≠ literals.repr (.cons head tail) ++ rest'
  := by
  intro h
  obtain ⟨c, text, htext, -, hne⟩ := exists_repr_eq_cons hfloats head
  rw [repr_cons, htext] at h
  simp only [repr, List.cons_append] at h
  exact hne (List.cons.inj (List.cons.inj h).2).1.symm

/-- The literal of a number is read up to what goes on with no number. -/
theorem readable_number (hfloats : literals.FloatTexts) {number : Hashed}
    (hnumber : number.IsNumber) :
  literals.Readable number
  := by
  constructor
  · intro hashed' rest rest' _ hrest hrest' h
    have hkind := literalKind_eq hfloats h
    have hnumber' : hashed'.IsNumber := by
      cases number with
      | int _ | float _ =>
          cases hashed' with
          | int _ => trivial
          | float _ => trivial
          | bool value => cases value <;> cases hkind
          | _ => cases hkind
      | _ => cases hnumber
    obtain ⟨htext, hsame⟩ := word_append_inj (isNumeric_of_mem_repr hfloats hnumber)
      (isNumeric_of_mem_repr hfloats hnumber') hrest hrest' h
    exact ⟨repr_number_inj hfloats hnumber hnumber' htext, hsame⟩
  · intro htuple
    cases number with
    | nil => cases hnumber
    | cons head tail => cases hnumber
    | _ => cases htuple

/-- The literal of a value, with something behind it that goes on with no number, determines
the value. -/
theorem readable (hfloats : literals.FloatTexts) {hashed : Hashed} (h : hashed.Proper) :
  literals.Readable hashed
  := by
  induction hashed with
  | int value => exact readable_number hfloats trivial
  | float value => exact readable_number hfloats trivial
  | none =>
      refine ⟨?_, nofun⟩
      intro hashed' rest rest' _ _ _ heq
      have hkind := literalKind_eq hfloats heq
      cases hashed' with
      | none => exact ⟨rfl, List.append_cancel_left heq⟩
      | bool value' => cases value' <;> cases hkind
      | _ => cases hkind
  | bool value =>
      refine ⟨?_, nofun⟩
      intro hashed' rest rest' _ _ _ heq
      have hkind := literalKind_eq hfloats heq
      have hsame : hashed' = .bool value := by
        cases hashed' with
        | bool value' => cases value <;> cases value' <;> first | rfl | cases hkind
        | _ => cases value <;> cases hkind
      subst hsame
      exact ⟨rfl, List.append_cancel_left heq⟩
  | str value =>
      refine ⟨?_, nofun⟩
      intro hashed' rest rest' _ _ _ heq
      have hkind := literalKind_eq hfloats heq
      cases hashed' with
      | str value' =>
          rw [repr, repr] at heq
          obtain ⟨hsame, hrest⟩ := reprStr_append_inj heq
          rw [hsame]
          exact ⟨rfl, hrest⟩
      | bool value' => cases value' <;> cases hkind
      | _ => cases hkind
  | nil =>
      constructor
      · intro hashed' rest rest' _ _ _ heq
        have hkind := literalKind_eq hfloats heq
        cases hashed' with
        | nil => exact ⟨rfl, List.append_cancel_left heq⟩
        | cons head' tail' => exact absurd heq (repr_nil_append_ne hfloats)
        | bool value' => cases value' <;> cases hkind
        | _ => cases hkind
      · intro _ tail' rest rest' _ htuple' heq
        cases tail' with
        | nil => exact ⟨rfl, List.append_cancel_left heq⟩
        | cons head' tail' => simp [reprTail] at heq
        | _ => cases htuple'
  | cons head tail ihhead ihtail =>
      obtain ⟨hhead, htail, htuple⟩ := h
      have hitem := ihhead hhead
      have hitems := ihtail htail
      constructor
      · intro hashed' rest rest' hproper' _ _ heq
        have hkind := literalKind_eq hfloats heq
        cases hashed' with
        | nil => exact absurd heq.symm (repr_nil_append_ne hfloats)
        | cons head' tail' =>
            obtain ⟨hhead', htail', htuple'⟩ := hproper'
            rw [repr_cons, repr_cons, List.cons_append, List.cons_append, List.cons.injEq,
              List.append_assoc, List.append_assoc] at heq
            obtain ⟨hsame, heq⟩ := hitem.literal hhead' (endsAt_closing tail rest)
              (endsAt_closing tail' rest') heq.2
            obtain ⟨hsame', hrest⟩ := closing_append_inj hitems htuple htail' htuple' heq
            rw [hsame, hsame']
            exact ⟨rfl, hrest⟩
        | bool value' => cases value' <;> cases hkind
        | _ => cases hkind
      · intro _ tail' rest rest' hproper' htuple' heq
        cases tail' with
        | nil => simp [reprTail] at heq
        | cons head' tail' =>
            obtain ⟨hhead', htail', htuple'⟩ := hproper'
            simp only [reprTail, List.cons_append, List.append_assoc, List.cons.injEq,
              true_and] at heq
            obtain ⟨hsame, heq⟩ := hitem.literal hhead' (endsAt_reprTail tail rest)
              (endsAt_reprTail tail' rest') heq
            obtain ⟨hsame', hrest⟩ := hitems.tail htuple htail' htuple' heq
            rw [hsame, hsame']
            exact ⟨rfl, hrest⟩
        | _ => cases htuple'

/-- The canonical form of a value determines it. -/
theorem repr_inj (hfloats : literals.FloatTexts) {hashed hashed' : Hashed} (h : hashed.Proper)
    (h' : hashed'.Proper) :
  literals.repr hashed = literals.repr hashed' ↔ hashed = hashed'
  := by
  constructor
  · intro heq
    have hend : EndsAt IsNumeric [] := nofun
    exact ((readable hfloats h).literal h' hend hend (congrArg (· ++ []) heq)).1
  · rintro rfl
    rfl

end Literals

end Orcastork
