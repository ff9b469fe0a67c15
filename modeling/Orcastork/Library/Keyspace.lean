import Mathlib.Logic.Function.Basic
import Mathlib.Tactic.Common

/-!
# A keyspace whose keys expire

A key holds a value, and possibly the time at which it is gone. What a key holds is asked at
a time; a key that has expired is as one that was never set.
-/

universe u v

/-- What a key holds, and when it expires, if it does. -/
structure Cell (Value : Type v) where
  value : Value
  expiresAt : Option ℕ

/-- The cells of the keys that were set. -/
def Keyspace (Key : Type u) (Value : Type v) := Key → Option (Cell Value)

namespace Keyspace

variable {Key : Type u} {Value : Type v}

/-- The keyspace with no key. -/
def empty : Keyspace Key Value := fun _ => none

/-- What a cell holds at a time. -/
def held (now : ℕ) : Option (Cell Value) → Option Value
  | none => none
  | some cell =>
    match cell.expiresAt with
    | none => some cell.value
    | some expiresAt => if now < expiresAt then some cell.value else none

/-- What a key holds at a time. -/
def get? (space : Keyspace Key Value) (now : ℕ) (key : Key) : Option Value :=
  held now (space key)

/-- When a key expires, if it does. -/
def expiry? (space : Keyspace Key Value) (key : Key) : Option ℕ :=
  (space key).bind Cell.expiresAt

variable [DecidableEq Key]

/-- A key set to a value, with the time it expires at. -/
def set (space : Keyspace Key Value) (key : Key) (value : Value) (expiresAt : Option ℕ) :
    Keyspace Key Value :=
  Function.update space key (some ⟨value, expiresAt⟩)

/-- A key deleted. -/
def erase (space : Keyspace Key Value) (key : Key) : Keyspace Key Value :=
  Function.update space key none

/-- A key that expires at another time from now on. -/
def expire (space : Keyspace Key Value) (key : Key) (expiresAt : ℕ) : Keyspace Key Value :=
  Function.update space key
    ((space key).map (fun cell => { cell with expiresAt := some expiresAt }))

@[simp]
theorem set_self (space : Keyspace Key Value) (key : Key) (value : Value)
    (expiresAt : Option ℕ) :
  space.set key value expiresAt key = some ⟨value, expiresAt⟩
  := Function.update_self _ _ _

theorem set_of_ne (space : Keyspace Key Value) {key key' : Key} (value : Value)
    (expiresAt : Option ℕ) (h : key' ≠ key) :
  space.set key value expiresAt key' = space key'
  := Function.update_of_ne h _ _

@[simp]
theorem erase_self (space : Keyspace Key Value) (key : Key) :
  space.erase key key = none
  := Function.update_self _ _ _

theorem erase_of_ne (space : Keyspace Key Value) {key key' : Key} (h : key' ≠ key) :
  space.erase key key' = space key'
  := Function.update_of_ne h _ _

@[simp]
theorem expire_self (space : Keyspace Key Value) (key : Key) (expiresAt : ℕ) :
  space.expire key expiresAt key
    = (space key).map (fun cell => { cell with expiresAt := some expiresAt })
  := Function.update_self _ _ _

theorem expire_of_ne (space : Keyspace Key Value) {key key' : Key} (expiresAt : ℕ)
    (h : key' ≠ key) :
  space.expire key expiresAt key' = space key'
  := Function.update_of_ne h _ _

/-! ### What keys hold -/

variable {space space' : Keyspace Key Value} {key : Key} {value : Value} {now : ℕ}

omit [DecidableEq Key] in
/-- Keys with the same cells hold the same. -/
theorem get?_congr (h : space key = space' key) (now : ℕ) :
  space.get? now key = space'.get? now key
  := by
  rw [get?, get?, h]

theorem get?_set_expiring (space : Keyspace Key Value) (key : Key) (value : Value)
    (expiresAt now : ℕ) :
  (space.set key value (some expiresAt)).get? now key
    = if now < expiresAt then some value else none
  := by
  rw [get?, set_self]
  rfl

theorem get?_erase (space : Keyspace Key Value) (key : Key) (now : ℕ) :
  (space.erase key).get? now key = none
  := by
  rw [get?, erase_self]
  rfl

/-- A key that holds a value now holds it until its new expiry. -/
theorem get?_expire (h : space.get? now key = some value) (expiresAt later : ℕ) :
  (space.expire key expiresAt).get? later key
    = if later < expiresAt then some value else none
  := by
  rw [get?, expire_self]
  rw [get?] at h
  cases hcell : space key with
  | none =>
      rw [hcell] at h
      cases h
  | some cell =>
      have hvalue : cell.value = value := by
        rw [hcell, held] at h
        split at h
        · exact Option.some.inj h
        · split at h
          · exact Option.some.inj h
          · cases h
      rw [Option.map_some, held, hvalue]

end Keyspace
