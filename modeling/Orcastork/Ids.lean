import Mathlib.Data.Int.Basic

/-!
# Identities and errors

The identity types of the framework and the errors its operations raise. An operation that
raises returns `Except.error`; what it had already changed is part of the returned state.
-/

namespace Orcastork

/-- Discriminator value of a DataPoint leaf. -/
abbrev DataPointType := String

/-- Registry key and provenance identity of an operator. -/
abbrev OperatorId := String

/-- Registry key of a capability. -/
abbrev CapabilityId := String

/-- One run of a flow. -/
abbrev SessionId := String

/-- Fencing token, minted by the session lock from `1` on. -/
abbrev Epoch := ℕ

/-- Store change counter, `0` for an empty session. -/
abbrev Revision := ℕ

/-- An aware `datetime`, in microseconds. -/
abbrev Timestamp := ℤ

/-- The errors of `exceptions.py` that the modelled operations raise, and the builtin
`TypeError` and `KeyError`. -/
inductive OrchestrationError where
  | staleEpoch (message : String)
  | lockHeld (message : String)
  | optimisticConcurrency (message : String)
  | stateMirror (message : String)
  | unprotectedPii (message : String)
  | piiKeyUnavailable (message : String)
  | typeError (message : String)
  | keyError (key : String)
  deriving DecidableEq, Repr

/-- Whether an error is a `StaleEpochError`, the one signal that a higher epoch took over. -/
def OrchestrationError.isStaleEpoch : OrchestrationError → Bool
  | .staleEpoch _ => true
  | _ => false

/-- A character as it stands in a Python string literal between single quotes. -/
def pyReprChar (c : Char) : String :=
  if c.toNat = 92 then "\\\\"
  else if c.toNat = 9 then "\\t"
  else if c.toNat = 10 then "\\n"
  else if c.toNat = 13 then "\\r"
  else if c.toNat < 32 ∨ c.toNat = 127 then
    "\\x" ++ String.ofList [Nat.digitChar (c.toNat / 16), Nat.digitChar (c.toNat % 16)]
  else c.toString

/-- `repr` of a string of printable and control characters without quotes. -/
def pyRepr (s : String) : String :=
  "'" ++ String.join (s.toList.map pyReprChar) ++ "'"

/-- `str(error)`. -/
def OrchestrationError.text : OrchestrationError → String
  | .staleEpoch message | .lockHeld message | .optimisticConcurrency message
  | .stateMirror message | .unprotectedPii message | .piiKeyUnavailable message
  | .typeError message => message
  | .keyError key => pyRepr key

end Orcastork
