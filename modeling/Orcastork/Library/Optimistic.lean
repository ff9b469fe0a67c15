import Mathlib.Data.Option.Basic
import Mathlib.Tactic.Common

/-!
# Optimistic writes

A value is kept together with a version that every write raises. Who has seen a value, and
later finds its version unchanged, sees that value still: in between there was no write, as
each would have raised the version (`Observed.eq`). So what was concluded from the value seen
is true of the value that a write guarded by its version replaces.
-/

universe u

namespace Optimistic

variable {Value : Type u} {version : Value → ℕ} {seen now next : Option Value}

/-- The version a write has to expect: `0` where there is no value. -/
def versionOf (version : Value → ℕ) : Option Value → ℕ
  | none => 0
  | some value => version value

/-- What was seen once: it is there still, or there is a higher version. -/
def Observed (version : Value → ℕ) (seen now : Option Value) : Prop :=
  seen = now ∨ versionOf version seen < versionOf version now

/-- A value is observed when it is read. -/
theorem Observed.refl (now : Option Value) :
  Observed version now now
  := Or.inl rfl

/-- It stays so when a write raises the version. -/
theorem Observed.raise (h : Observed version seen now)
    (hraise : versionOf version now < versionOf version next) :
  Observed version seen next
  := by
  right
  rcases h with rfl | hlt
  · exact hraise
  · exact Nat.lt_trans hlt hraise

/-- What was observed under the version that is there now is there now. -/
theorem Observed.eq (h : Observed version seen now)
    (hversion : versionOf version seen = versionOf version now) :
  seen = now
  := by
  rcases h with heq | hlt
  · exact heq
  · exact absurd hversion (Nat.ne_of_lt hlt)

end Optimistic
