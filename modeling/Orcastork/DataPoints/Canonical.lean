import Orcastork.DataPoints.Base

/-!
# The canonical form of a value

`canonicalValue` is Python's `repr` of the normalized value. String-keyed contexts use it
where the in-memory store uses the normalized value itself.

`repr` of a float and the table of printable characters are taken as they are
(`Literals`); how scalars, strings and tuples are written around them is spelled out.
-/

namespace Orcastork

/-- What `repr` takes from the interpreter: the shortest text of a float, and whether a
character beyond ASCII is printable. -/
structure Literals where
  reprFloat : PyFloat → String
  isPrintable : Char → Bool

namespace Literals

/-- The last `width` hexadecimal digits of a number. -/
def hexDigits : ℕ → ℕ → List Char
  | 0, _ => []
  | width + 1, n => hexDigits width (n / 16) ++ [Nat.digitChar (n % 16)]

/-- A character as it stands in a literal between two of the given quotes. -/
def reprChar (literals : Literals) (quote c : Char) : List Char :=
  if c = quote ∨ c = '\\' then ['\\', c]
  else if c = '\t' then ['\\', 't']
  else if c = '\n' then ['\\', 'n']
  else if c = '\r' then ['\\', 'r']
  else if c.toNat < 32 ∨ c.toNat = 127 then '\\' :: 'x' :: hexDigits 2 c.toNat
  else if c.toNat < 127 ∨ literals.isPrintable c then [c]
  else if c.toNat < 256 then '\\' :: 'x' :: hexDigits 2 c.toNat
  else if c.toNat < 65536 then '\\' :: 'u' :: hexDigits 4 c.toNat
  else '\\' :: 'U' :: hexDigits 8 c.toNat

/-- The quote of a literal: single, unless the string has single quotes and no double one. -/
def quoteOf (s : String) : Char :=
  if '\'' ∈ s.toList ∧ '"' ∉ s.toList then '"' else '\''

/-- `repr` of a string. -/
def reprStr (literals : Literals) (s : String) : List Char :=
  quoteOf s :: (s.toList.flatMap (literals.reprChar (quoteOf s)) ++ [quoteOf s])

mutual

/-- `repr` of a normalized value. A tuple of one item has a comma after it. -/
def repr (literals : Literals) : Hashed → List Char
  | .none => "None".toList
  | .bool value => if value then "True".toList else "False".toList
  | .int value => (toString value).toList
  | .float value => (literals.reprFloat value).toList
  | .str value => literals.reprStr value
  | .nil => "()".toList
  | .cons head .nil => '(' :: (repr literals head ++ ",)".toList)
  | .cons head tail => '(' :: (repr literals head ++ reprTail literals tail)

/-- The items of a tuple after its first, and its closing bracket. -/
def reprTail (literals : Literals) : Hashed → List Char
  | .cons head tail => ',' :: ' ' :: (repr literals head ++ reprTail literals tail)
  | _ => [')']

end

/-- `canonical_value`: a string form of a value's normalization. -/
def canonicalValue (literals : Literals) (dataPoint : BaseDataPoint) : String :=
  String.ofList (literals.repr dataPoint.hashed)

end Literals

end Orcastork
