import Mathlib.Data.Rat.Defs
import Mathlib.Algebra.Order.Ring.Rat
import Mathlib.Order.WithBot
import Orcastork.Ids

/-!
# DataPoints

A `BaseDataPoint` is the framework's unit of data. Its identity is its type together with
its normalized value, timestamps excluded, so observing a value again merges into the
DataPoint already there.

Values are the plain Python data a leaf carries. `makeHashable` coerces them to scalars and
tuples, sorting what has no order of its own; it raises when two of the things to sort
cannot be compared. A `BaseDataPoint` carries its normalized value together with the proof
that the normalization returned it, so it always has an identity.
-/

namespace Orcastork

/-- A number, or one of the two infinities. -/
abbrev Extended := WithBot (WithTop ℚ)

/-- A number as an extended one. -/
def Extended.ofRat (value : ℚ) : Extended := ((value : WithTop ℚ) : WithBot (WithTop ℚ))

/-- A boolean counts as one or zero. -/
def Extended.ofBool (value : Bool) : Extended := .ofRat (if value then 1 else 0)

/-- A Python float other than a NaN: the rational it denotes, the negative zero, or an
infinity. -/
inductive PyFloat where
  | finite (value : ℚ)
  | negZero
  | inf
  | negInf
  deriving DecidableEq

/-- The number a float denotes. -/
def PyFloat.number : PyFloat → Extended
  | .finite value => .ofRat value
  | .negZero => .ofRat 0
  | .inf => ⊤
  | .negInf => ⊥

/-- A hashable Python value: a scalar or a tuple. A tuple is `nil` or a `cons` of its first
item and the tuple of the others. -/
inductive Hashed where
  | none
  | bool (value : Bool)
  | int (value : ℤ)
  | float (value : PyFloat)
  | str (value : String)
  | nil
  | cons (head tail : Hashed)
  deriving DecidableEq

/-- The tuple of the items of a list. -/
def Hashed.tuple : List Hashed → Hashed
  | [] => .nil
  | item :: items => .cons item (tuple items)

/-- A DataPoint value. The items of a dictionary are in insertion order, those of a set
(or frozenset) in its iteration order. -/
inductive Value where
  | none
  | bool (value : Bool)
  | int (value : ℤ)
  | float (value : PyFloat)
  | str (value : String)
  | list (items : List Value)
  | tuple (items : List Value)
  | dict (items : List (Hashed × Value))
  | set (items : List Value)

/-- What a hashable value is equal to under Python's `==`: booleans, integers and floats
are one kind of number. -/
inductive EqKey where
  | none
  | num (value : Extended)
  | str (value : String)
  | nil
  | cons (head tail : EqKey)
  deriving DecidableEq

namespace Hashed

/-- The class of a value under `==`; two values are equal when their classes are. -/
def eqKey : Hashed → EqKey
  | .none => .none
  | .bool value => .num (.ofBool value)
  | .int value => .num (.ofRat value)
  | .float value => .num value.number
  | .str value => .str value
  | .nil => .nil
  | .cons head tail => .cons head.eqKey tail.eqKey

/-- The name of a value's type, as the message of a failed comparison spells it. -/
def typeName : Hashed → String
  | .none => "NoneType"
  | .bool _ => "bool"
  | .int _ => "int"
  | .float _ => "float"
  | .str _ => "str"
  | .nil => "tuple"
  | .cons _ _ => "tuple"

/-- The number a value is, if it is one. -/
def number? : Hashed → Option Extended
  | .bool value => some (.ofBool value)
  | .int value => some (.ofRat value)
  | .float value => some value.number
  | _ => Option.none

private def unordered (a b : Hashed) : Except OrchestrationError Bool :=
  .error (.typeError
    ("'<' not supported between instances of '" ++ a.typeName ++ "' and '" ++ b.typeName ++ "'"))

/-- Python's `a < b`: numbers by value, strings by code points, tuples by their first
items that differ; any other pair raises. -/
def lt : Hashed → Hashed → Except OrchestrationError Bool
  | .str a, .str b => .ok (decide (a < b))
  | .nil, .nil => .ok false
  | .nil, .cons _ _ => .ok true
  | .cons _ _, .nil => .ok false
  | .cons a as, .cons b bs => if a.eqKey = b.eqKey then lt as bs else lt a b
  | a, b =>
    match a.number?, b.number? with
    | some x, some y => .ok (decide (x < y))
    | _, _ => unordered a b

/-- `x` put into a sorted list, after the items it is not below. -/
def insertSorted (x : Hashed) : List Hashed → Except OrchestrationError (List Hashed)
  | [] => .ok [x]
  | y :: ys => do
    if ← x.lt y then
      return x :: y :: ys
    else
      return y :: (← insertSorted x ys)

/-- Python's `sorted`: stable, and raising when it meets two items without an order. Which two it
meets first is its own affair: where there are several such pairs, or several types, the text of the
error may name others than CPython's does, or the same in the other order. -/
def sorted (items : List Hashed) : Except OrchestrationError (List Hashed) :=
  items.foldlM (fun done item => item.insertSorted done) []

end Hashed

/-- `_make_hashable`: a value as scalars and tuples. Lists and tuples keep their order,
dictionaries become their sorted items and sets their sorted elements. -/
def makeHashable : Value → Except OrchestrationError Hashed
  | .none => .ok .none
  | .bool value => .ok (.bool value)
  | .int value => .ok (.int value)
  | .float value => .ok (.float value)
  | .str value => .ok (.str value)
  | .list items => do return .tuple (← each items)
  | .tuple items => do return .tuple (← each items)
  | .dict items => do return .tuple (← (← eachItem items) |> Hashed.sorted)
  | .set items => do return .tuple (← (← each items) |> Hashed.sorted)
where
  /-- The items of a sequence, one after another. -/
  each : List Value → Except OrchestrationError (List Hashed)
    | [] => .ok []
    | item :: items => do return (← makeHashable item) :: (← each items)
  /-- The items of a dictionary as pairs, their values coerced. -/
  eachItem : List (Hashed × Value) → Except OrchestrationError (List Hashed)
    | [] => .ok []
    | (key, value) :: items => do
      return .tuple [key, ← makeHashable value] :: (← eachItem items)

theorem makeHashable_str (text : String) :
  makeHashable (.str text) = .ok (.str text)
  := rfl

/-- The framework's unit of data, a frozen model. -/
structure BaseDataPoint where
  /-- The discriminator every concrete leaf pins. -/
  type : DataPointType
  value : Value
  retrievedBy : OperatorId
  firstRetrieved : Timestamp
  lastRetrieved : Timestamp
  /-- The normalized value, computed from `value`. -/
  hashed : Hashed
  hashable : makeHashable value = .ok hashed

/-- The key of the keyed merge: a type and the class of a normalized value under `==`. -/
abbrev IdentityKey := DataPointType × EqKey

instance lawfulBEq_identityKey : LawfulBEq IdentityKey := Prod.instLawfulBEq

/-- The identity of a DataPoint, timestamps excluded. -/
def identityKey (dataPoint : BaseDataPoint) : IdentityKey :=
  (dataPoint.type, dataPoint.hashed.eqKey)

/-- A copy with the last observation moved to `at'`, if that is later. -/
def BaseDataPoint.reobserved (dataPoint : BaseDataPoint) (at' : Timestamp) : BaseDataPoint :=
  { dataPoint with lastRetrieved := max dataPoint.lastRetrieved at' }

@[simp]
theorem identityKey_reobserved (dataPoint : BaseDataPoint) (at' : Timestamp) :
  identityKey (dataPoint.reobserved at') = identityKey dataPoint
  := rfl

@[simp]
theorem lastRetrieved_reobserved (dataPoint : BaseDataPoint) (at' : Timestamp) :
  (dataPoint.reobserved at').lastRetrieved = max dataPoint.lastRetrieved at'
  := rfl

/-- An observation that is not later changes nothing. -/
theorem reobserved_of_le {dataPoint : BaseDataPoint} {at' : Timestamp}
    (h : at' ≤ dataPoint.lastRetrieved) :
  dataPoint.reobserved at' = dataPoint
  := by
  cases dataPoint
  simp only [BaseDataPoint.reobserved, BaseDataPoint.mk.injEq, true_and, and_true]
  exact max_eq_left h

/-- Observing twice is observing once, at the later time. -/
theorem reobserved_reobserved (dataPoint : BaseDataPoint) (s t : Timestamp) :
  (dataPoint.reobserved s).reobserved t = dataPoint.reobserved (max s t)
  := by
  simp only [BaseDataPoint.reobserved, max_assoc]

/-- The DataPoints that changed since a given store revision. -/
structure ChangeSet where
  /-- New identities. -/
  added : List BaseDataPoint
  /-- Existing identities observed again since the revision. -/
  updated : List BaseDataPoint

/-- Whether a merge found its identity new or present. -/
inductive MergeKind where
  | added
  | updated
  deriving DecidableEq, Repr

/-- What a merge did with one presented DataPoint. -/
structure MergeResult where
  kind : MergeKind
  dataPoint : BaseDataPoint

end Orcastork
