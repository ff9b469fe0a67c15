import Mathlib.Data.Rat.Encodable
import Orcastork.Adapters.Redis.Store
import Orcastork.Archive.Sealing
import Orcastork.DataPoints.Json
import Orcastork.DataPoints.Readability

/-!
# Agreement on the identity of a DataPoint

The in-memory store compares the normalized values of DataPoints under Python's `==`, the
Redis store and the archive compare the texts of these values. For JSON values the three
notions are the same, and identify no two different values, unless the values are respelled:
`==` does not tell a boolean, an integer and a float of one number apart, nor the two zeros,
and a normalized object is the tuple of its items, as is the list of them.

`Respelled` says that two values differ in such spellings at most, and `Json.kinds` is what
spells a value, so the condition is that respelled values have the same kinds
(`identityAgrees_iff`).
-/

namespace Orcastork

namespace Json

/-! ### Spellings -/

/-- The number a JSON value is, if it is one. -/
def number? : Json → Option Extended
  | .bool value => some (.ofBool value)
  | .int value => some (.ofRat value)
  | .float value => some value.number
  | _ => none

/-- The elements of a list, and those of an object: its items, each a list of two. -/
def elements? : Json → Option (List Json)
  | .list items => some items
  | .object items => some (items.map (fun item => .list [.str item.1, item.2]))
  | _ => none

mutual

/-- Two values are the same but for the spelling of their numbers and containers. -/
inductive Respelled : Json → Json → Prop
  | null : Respelled .null .null
  | number {a b : Json} {value : Extended} (ha : a.number? = some value)
      (hb : b.number? = some value) : Respelled a b
  | str (value : String) : Respelled (.str value) (.str value)
  | container {a b : Json} {as bs : List Json} (ha : a.elements? = some as)
      (hb : b.elements? = some bs) (h : RespelledAll as bs) : Respelled a b

/-- The values of two lists are respelled one by one. -/
inductive RespelledAll : List Json → List Json → Prop
  | nil : RespelledAll [] []
  | cons {a b : Json} {as bs : List Json} (h : Respelled a b) (htail : RespelledAll as bs) :
      RespelledAll (a :: as) (b :: bs)

end

/-- The kinds of the values in a JSON value. The negative zero is a kind of its own. -/
inductive Kinds where
  | null
  | bool
  | int
  | float (negZero : Bool)
  | str
  | list (items : List Kinds)
  | object (values : List Kinds)

/-- The kinds of a value and of the values in it. -/
def kinds : Json → Kinds
  | .null => .null
  | .bool _ => .bool
  | .int _ => .int
  | .float value => .float (value = .negZero)
  | .str _ => .str
  | .list items => .list (each items)
  | .object items => .object (eachItem items)
where
  each : List Json → List Kinds
    | [] => []
    | item :: items => kinds item :: each items
  eachItem : List (String × Json) → List Kinds
    | [] => []
    | (_, value) :: items => kinds value :: eachItem items

theorem kinds_each (items : List Json) :
  kinds.each items = items.map kinds
  := by
  induction items with
  | nil => rfl
  | cons item items ih => rw [kinds.each, ih, List.map_cons]

theorem kinds_eachItem (items : List (String × Json)) :
  kinds.eachItem items = items.map (fun item => item.2.kinds)
  := by
  induction items with
  | nil => rfl
  | cons item items ih => rw [kinds.eachItem, ih, List.map_cons]

/-! ### Respelled values are those that normalize to equal ones -/

theorem eqKey_hash_of_number? {json : Json} {value : Extended} (h : json.number? = some value) :
  json.hash.eqKey = .num value
  := by
  cases json with
  | bool _ | int _ | float _ =>
      cases h
      rfl
  | _ => cases h

theorem hash_of_elements? {json : Json} {elements : List Json}
    (h : json.elements? = some elements) :
  json.hash = .tuple (elements.map hash)
  := by
  cases json with
  | list items =>
      cases h
      rw [hash, hash_each]
  | object items =>
      cases h
      rw [hash, hash_eachItem, List.map_map]
      rfl
  | _ => cases h

/-- What a value is: null, a number, a string or a container. -/
theorem shape (json : Json) :
  json = .null ∨ (∃ value, json.number? = some value) ∨ (∃ value, json = .str value)
    ∨ ∃ elements, json.elements? = some elements
  := by
  cases json with
  | null => exact Or.inl rfl
  | bool _ | int _ | float _ => exact Or.inr (Or.inl ⟨_, rfl⟩)
  | str value => exact Or.inr (Or.inr (Or.inl ⟨value, rfl⟩))
  | list _ | object _ => exact Or.inr (Or.inr (Or.inr ⟨_, rfl⟩))

mutual

/-- Respelled values normalize to equal ones. -/
theorem Respelled.eqKey_eq : ∀ {a b : Json}, Respelled a b → a.hash.eqKey = b.hash.eqKey
  | _, _, .null => rfl
  | _, _, .number ha hb => by
      rw [eqKey_hash_of_number? ha, eqKey_hash_of_number? hb]
  | _, _, .str _ => rfl
  | _, _, .container ha hb h => by
      rw [hash_of_elements? ha, hash_of_elements? hb, h.eqKey_eq]

theorem RespelledAll.eqKey_eq : ∀ {as bs : List Json}, RespelledAll as bs →
    (Hashed.tuple (as.map hash)).eqKey = (Hashed.tuple (bs.map hash)).eqKey
  | _, _, .nil => rfl
  | _, _, .cons h htail => by
      simp only [List.map_cons, Hashed.tuple, Hashed.eqKey, h.eqKey_eq, htail.eqKey_eq]

end

/-- The lists of values whose tuple is a given value are respelled wherever the tuples are
equal. -/
def ReadsBack (hashed : Hashed) : Prop :=
  ∀ as bs : List Json, .tuple (as.map hash) = hashed →
    hashed.eqKey = (Hashed.tuple (bs.map hash)).eqKey → RespelledAll as bs

theorem tuple_eqKey_ne (elements : List Hashed) :
  (Hashed.tuple elements).eqKey ≠ .none ∧ (∀ value, (Hashed.tuple elements).eqKey ≠ .num value)
    ∧ ∀ value, (Hashed.tuple elements).eqKey ≠ .str value
  := by
  cases elements with
  | nil => exact ⟨nofun, nofun, nofun⟩
  | cons element elements => exact ⟨nofun, nofun, nofun⟩

/-- Values that normalize to equal ones are respelled, if the values in them are. -/
theorem respelled_of_readsBack {a b : Json} (ha : ReadsBack a.hash)
    (h : a.hash.eqKey = b.hash.eqKey) :
  Respelled a b
  := by
  rcases a.shape with rfl | ⟨x, hx⟩ | ⟨s, rfl⟩ | ⟨as, has⟩
  · rcases b.shape with rfl | ⟨y, hy⟩ | ⟨t, rfl⟩ | ⟨bs, hbs⟩
    · exact .null
    · rw [eqKey_hash_of_number? hy] at h
      cases h
    · cases h
    · rw [hash_of_elements? hbs] at h
      exact absurd h.symm (tuple_eqKey_ne _).1
  · rw [eqKey_hash_of_number? hx] at h
    rcases b.shape with rfl | ⟨y, hy⟩ | ⟨t, rfl⟩ | ⟨bs, hbs⟩
    · cases h
    · rw [eqKey_hash_of_number? hy] at h
      cases h
      exact .number hx hy
    · cases h
    · rw [hash_of_elements? hbs] at h
      exact absurd h.symm ((tuple_eqKey_ne _).2.1 x)
  · rcases b.shape with rfl | ⟨y, hy⟩ | ⟨t, rfl⟩ | ⟨bs, hbs⟩
    · cases h
    · rw [eqKey_hash_of_number? hy] at h
      cases h
    · cases h
      exact .str s
    · rw [hash_of_elements? hbs] at h
      exact absurd h.symm ((tuple_eqKey_ne _).2.2 s)
  · rcases b.shape with rfl | ⟨y, hy⟩ | ⟨t, rfl⟩ | ⟨bs, hbs⟩
    · rw [hash_of_elements? has] at h
      exact absurd h (tuple_eqKey_ne _).1
    · rw [hash_of_elements? has, eqKey_hash_of_number? hy] at h
      exact absurd h ((tuple_eqKey_ne _).2.1 y)
    · rw [hash_of_elements? has] at h
      exact absurd h ((tuple_eqKey_ne _).2.2 t)
    · apply Respelled.container has hbs
      apply ha as bs (hash_of_elements? has).symm
      rw [h, hash_of_elements? hbs]

theorem readsBack (hashed : Hashed) :
  ReadsBack hashed
  := by
  induction hashed with
  | nil =>
      intro as bs has h
      cases as with
      | nil =>
          cases bs with
          | nil => exact .nil
          | cons b bs => cases h
      | cons a as => cases has
  | cons head tail ihhead ihtail =>
      intro as bs has h
      cases as with
      | nil => cases has
      | cons a as =>
          rw [List.map_cons, Hashed.tuple, Hashed.cons.injEq] at has
          obtain ⟨rfl, rfl⟩ := has
          cases bs with
          | nil => cases h
          | cons b bs =>
              rw [List.map_cons, Hashed.tuple, Hashed.eqKey, Hashed.eqKey, EqKey.cons.injEq] at h
              apply RespelledAll.cons (respelled_of_readsBack ihhead h.1)
              apply ihtail as bs rfl h.2
  | _ =>
      intro as bs has h
      cases as with
      | nil => cases has
      | cons a as => cases has

/-- Two values normalize to equal ones exactly when they are respelled. -/
theorem eqKey_hash_eq_iff {a b : Json} :
  a.hash.eqKey = b.hash.eqKey ↔ Respelled a b
  := by
  constructor
  · apply respelled_of_readsBack (readsBack a.hash)
  · apply Respelled.eqKey_eq

/-! ### Respelled values of the same kinds are the same -/

/-- The item of an object, as an element. -/
theorem elements?_injective {items items' : List (String × Json)}
    (h : items.map (fun item => (.list [.str item.1, item.2] : Json))
      = items'.map (fun item => .list [.str item.1, item.2])) :
  items = items'
  := by
  apply List.map_injective_iff.mpr _ h
  rintro ⟨key, value⟩ ⟨key', value'⟩ hitem
  simp only [list.injEq, List.cons.injEq, str.injEq, and_true] at hitem
  rw [hitem.1, hitem.2]

theorem ofRat_injective {q q' : ℚ} (h : Extended.ofRat q = Extended.ofRat q') :
  q = q'
  := WithTop.coe_injective (WithBot.coe_injective h)

theorem ofBool_injective {value value' : Bool}
    (h : Extended.ofBool value = Extended.ofBool value') :
  value = value'
  := by
  have hnumber := ofRat_injective h
  cases value <;> cases value' <;> simp at hnumber ⊢

/-- Floats that are equal are the same, unless one of them is the negative zero. -/
theorem eq_of_number {f g : PyFloat} (h : f.number = g.number)
    (hzero : f = .negZero ↔ g = .negZero) :
  f = g
  := by
  have htop : ∀ q, Extended.ofRat q ≠ ⊤ := fun q hq => by
    cases WithBot.coe_injective hq
  have hbot : ∀ q, Extended.ofRat q ≠ ⊥ := fun q hq => WithBot.coe_ne_bot hq
  have htopbot : (⊤ : Extended) ≠ ⊥ := WithBot.coe_ne_bot
  cases f with
  | finite q =>
      cases g with
      | finite q' => rw [ofRat_injective h]
      | negZero => cases hzero.mpr rfl
      | inf => exact absurd h (htop q)
      | negInf => exact absurd h (hbot q)
  | negZero => exact (hzero.mp rfl).symm
  | inf =>
      cases g with
      | finite q' => exact absurd h.symm (htop q')
      | negZero => cases hzero.mpr rfl
      | inf => rfl
      | negInf => exact absurd h htopbot
  | negInf =>
      cases g with
      | finite q' => exact absurd h.symm (hbot q')
      | negZero => cases hzero.mpr rfl
      | inf => exact absurd h.symm htopbot
      | negInf => rfl

/-- Numbers of one kind are the same if they are equal. -/
theorem eq_of_number? {a b : Json} {value : Extended} (ha : a.number? = some value)
    (hb : b.number? = some value) (h : a.kinds = b.kinds) :
  a = b
  := by
  rw [← hb] at ha
  cases a with
  | bool v =>
      cases b with
      | bool w => rw [ofBool_injective (Option.some.inj ha)]
      | _ => cases h
  | int v =>
      cases b with
      | int w => rw [Rat.intCast_injective (ofRat_injective (Option.some.inj ha))]
      | _ => cases h
  | float f =>
      cases b with
      | float g =>
          have hzero : (f = .negZero) ↔ (g = .negZero) := by
            rw [kinds, kinds, Kinds.float.injEq] at h
            simpa using h
          rw [eq_of_number (Option.some.inj ha) hzero]
      | _ => cases h
  | _ =>
      rw [hb] at ha
      cases ha

/-- Containers of one kind have elements of the same kinds. -/
theorem elements_of_kinds {a b : Json} {as bs : List Json} (ha : a.elements? = some as)
    (hb : b.elements? = some bs) (h : a.kinds = b.kinds) :
  as.map kinds = bs.map kinds ∧ (as = bs → a = b)
  := by
  cases a with
  | list items =>
      cases b with
      | list items' =>
          cases ha
          cases hb
          rw [kinds, kinds, Kinds.list.injEq, kinds_each, kinds_each] at h
          exact ⟨h, congrArg _⟩
      | object items' => cases h
      | _ => cases hb
  | object items =>
      cases b with
      | object items' =>
          cases ha
          cases hb
          rw [kinds, kinds, Kinds.object.injEq, kinds_eachItem, kinds_eachItem] at h
          constructor
          · have helements := congrArg (List.map (fun value => Kinds.list [.str, value])) h
            rw [List.map_map, List.map_map] at helements ⊢
            exact helements
          · intro helements
            rw [elements?_injective helements]
      | list items' => cases h
      | _ => cases hb
  | _ => cases ha

mutual

theorem Respelled.eq_of_kinds : ∀ {a b : Json}, Respelled a b → a.kinds = b.kinds → a = b
  | _, _, .null, _ => rfl
  | _, _, .number ha hb, h => eq_of_number? ha hb h
  | _, _, .str _, _ => rfl
  | _, _, .container ha hb hall, h => by
      obtain ⟨hkinds, heq⟩ := elements_of_kinds ha hb h
      exact heq (hall.eq_of_kinds hkinds)

theorem RespelledAll.eq_of_kinds : ∀ {as bs : List Json}, RespelledAll as bs →
    as.map kinds = bs.map kinds → as = bs
  | _, _, .nil, _ => rfl
  | _, _, .cons h htail, hkinds => by
      rw [List.map_cons, List.map_cons, List.cons.injEq] at hkinds
      rw [h.eq_of_kinds hkinds.1, htail.eq_of_kinds hkinds.2]

end

/-- Respelled values are the same exactly when they have the same kinds. -/
theorem kinds_eq_iff {a b : Json} (h : Respelled a b) :
  a.kinds = b.kinds ↔ a = b
  := ⟨h.eq_of_kinds, congrArg kinds⟩

/-! ### The canonical form of a JSON value -/

theorem proper_tuple {items : List Hashed} (h : ∀ item ∈ items, item.Proper) :
  (Hashed.tuple items).Proper ∧ (Hashed.tuple items).IsTuple
  := by
  induction items with
  | nil => exact ⟨trivial, trivial⟩
  | cons item items ih =>
      obtain ⟨hitem, hitems⟩ := List.forall_mem_cons.mp h
      exact ⟨⟨hitem, ih hitems⟩, trivial⟩

theorem proper_hash (json : Json) :
  json.hash.Proper
  := by
  induction json with
  | list items ih =>
      rw [hash, hash_each]
      apply And.left
      apply proper_tuple
      intro hashed hmem
      obtain ⟨item, hitem, rfl⟩ := List.mem_map.mp hmem
      apply ih item hitem
  | object items ih =>
      rw [hash, hash_eachItem]
      apply And.left
      apply proper_tuple
      intro hashed hmem
      obtain ⟨item, hitem, rfl⟩ := List.mem_map.mp hmem
      apply And.left
      apply proper_tuple
      simp only [List.mem_cons, List.not_mem_nil, or_false, forall_eq_or_imp, forall_eq]
      exact ⟨trivial, ih item hitem⟩
  | _ => trivial

end Json

open Json

/-! ### The three notions of the same DataPoint -/

/-- What the notions rest on: the Redis store and the archive run on one interpreter, with
texts of floats that can be told apart; the digests have no collisions; and a JSON value is
dumped as it is. -/
structure Collisionless (wire : Wire) (sealing : Sealing) (leaves : Leaves) : Prop where
  literals : sealing.literals = wire.toLiterals
  floats : wire.FloatTexts
  sha256 : Function.Injective sealing.sha256
  mac : Function.Injective sealing.cipher.mac
  dump : ∀ (type : DataPointType) (json : Json), json.WellFormed →
    leaves.dump type json.toValue = json.toValue

/-- The three notions of the same DataPoint coincide on two DataPoints, and identify them only
if they have the same JSON value up to the order of keys. -/
structure IdentityAgrees (wire : Wire) (sealing : Sealing) (leaves : Leaves) (a b : Json)
    (d d' : BaseDataPoint) : Prop where
  redis : identityKey d = identityKey d' ↔ wire.identity d = wire.identity d'
  archive : ∀ epoch epoch', identityKey d = identityKey d'
    ↔ sealing.valueHash (.fromDataPoint leaves d epoch)
      = sealing.valueHash (.fromDataPoint leaves d' epoch')
  identified : identityKey d = identityKey d' ∨ wire.identity d = wire.identity d'
      ∨ (∃ epoch epoch', sealing.valueHash (.fromDataPoint leaves d epoch)
        = sealing.valueHash (.fromDataPoint leaves d' epoch')) →
    a.sortKeys = b.sortKeys

section

variable {wire : Wire} {sealing : Sealing} {leaves : Leaves} {a b : Json} {d d' : BaseDataPoint}

/-- A DataPoint with a JSON value has the normalization of the value with its keys in order. -/
theorem hashed_eq (ha : a.WellFormed) (hd : d.value = a.toValue) :
  d.hashed = a.sortKeys.hash
  := by
  have hhashable := d.hashable
  rw [hd, makeHashable_toValue ha] at hhashable
  exact (Except.ok.inj hhashable).symm

/-- In memory, DataPoints are the same when their values are respelled. -/
theorem identityKey_eq_iff (ha : a.WellFormed) (hb : b.WellFormed) (hd : d.value = a.toValue)
    (hd' : d'.value = b.toValue) (htype : d.type = d'.type) :
  identityKey d = identityKey d' ↔ Respelled a.sortKeys b.sortKeys
  := by
  rw [identityKey, identityKey, hashed_eq ha hd, hashed_eq hb hd', htype, Prod.mk.injEq,
    eqKey_hash_eq_iff]
  simp

/-- The canonical forms of JSON values are the same when their normalizations are. -/
theorem canonicalValue_eq_iff (hfloats : wire.FloatTexts) (ha : a.WellFormed)
    (hb : b.WellFormed) (hd : d.value = a.toValue) (hd' : d'.value = b.toValue) :
  wire.canonicalValue d = wire.canonicalValue d' ↔ a.sortKeys.hash = b.sortKeys.hash
  := by
  rw [Literals.canonicalValue, Literals.canonicalValue, hashed_eq ha hd, hashed_eq hb hd',
    String.ofList_inj, Literals.repr_inj hfloats (proper_hash _) (proper_hash _)]

/-- In Redis, DataPoints of one type are the same when their canonical forms are. -/
theorem wireIdentity_eq_iff (htype : d.type = d'.type) :
  wire.identity d = wire.identity d' ↔ wire.canonicalValue d = wire.canonicalValue d'
  := by
  rw [Wire.identity, Wire.identity, htype, String.append_right_inj]

/-- In the archive as well. -/
theorem valueHash_eq_iff (h : Collisionless wire sealing leaves) (ha : a.WellFormed)
    (hb : b.WellFormed) (hd : d.value = a.toValue) (hd' : d'.value = b.toValue)
    (htype : d.type = d'.type) (epoch epoch' : Epoch) :
  sealing.valueHash (.fromDataPoint leaves d epoch)
      = sealing.valueHash (.fromDataPoint leaves d' epoch')
    ↔ wire.canonicalValue d = wire.canonicalValue d'
  := by
  have hcanonical : ∀ {json : Json} {dp : BaseDataPoint} {epoch : Epoch}, json.WellFormed →
      dp.value = json.toValue →
        sealing.canonicalValue (ArchivedDataPoint.fromDataPoint leaves dp epoch).value
          = wire.canonicalValue dp := by
    intro json dp epoch hjson hdp
    have hdump : (ArchivedDataPoint.fromDataPoint leaves dp epoch).value = json.toValue := by
      rw [← h.dump dp.type json hjson, ← hdp]
      rfl
    rw [Sealing.canonicalValue, hdump, makeHashable_toValue hjson, Literals.canonicalValue,
      hashed_eq hjson hdp, h.literals]
  have hpii : (ArchivedDataPoint.fromDataPoint leaves d epoch).isPii
      = (ArchivedDataPoint.fromDataPoint leaves d' epoch').isPii := by
    simp only [ArchivedDataPoint.fromDataPoint, Leaves.isPii, htype]
  rw [Sealing.valueHash, Sealing.valueHash, hcanonical ha hd, hcanonical hb hd', hpii]
  split
  · rw [h.mac.eq_iff, String.append_right_inj]
  · rw [h.sha256.eq_iff]

/-- The notions agree on two DataPoints of one type exactly when their values, if respelled,
have the same kinds. -/
theorem identityAgrees_iff (h : Collisionless wire sealing leaves) (ha : a.WellFormed)
    (hb : b.WellFormed) (hd : d.value = a.toValue) (hd' : d'.value = b.toValue)
    (htype : d.type = d'.type) :
  IdentityAgrees wire sealing leaves a b d d'
    ↔ (Respelled a.sortKeys b.sortKeys → a.sortKeys.kinds = b.sortKeys.kinds)
  := by
  have hmemory := identityKey_eq_iff ha hb hd hd' htype
  have hcanonical := canonicalValue_eq_iff h.floats ha hb hd hd'
  have hredis := (@wireIdentity_eq_iff wire d d' htype).trans hcanonical
  have harchive := fun epoch epoch' =>
    (valueHash_eq_iff h ha hb hd hd' htype epoch epoch').trans hcanonical
  constructor
  · intro hagrees hrespelled
    rw [hagrees.identified (Or.inl (hmemory.mpr hrespelled))]
  · intro hkinds
    -- Equal normalizations are equal under `==`, so everything rests on respelled values.
    have hsame : Respelled a.sortKeys b.sortKeys ↔ a.sortKeys = b.sortKeys := by
      constructor
      · intro hrespelled
        exact (kinds_eq_iff hrespelled).mp (hkinds hrespelled)
      · intro heq
        rw [← eqKey_hash_eq_iff, heq]
    have hhash : a.sortKeys.hash = b.sortKeys.hash ↔ a.sortKeys = b.sortKeys := by
      constructor
      · intro heq
        rw [← hsame, ← eqKey_hash_eq_iff, heq]
      · exact congrArg hash
    constructor
    · rw [hmemory, hredis, hsame, hhash]
    · intro epoch epoch'
      rw [hmemory, harchive, hsame, hhash]
    · rintro (hidentified | hidentified | ⟨epoch, epoch', hidentified⟩)
      · exact hsame.mp (hmemory.mp hidentified)
      · exact hhash.mp (hredis.mp hidentified)
      · exact hhash.mp ((harchive epoch epoch').mp hidentified)

end

/-! ### Two spellings of one -/

/-- The place of a float in an enumeration of all floats. -/
def floatPlace : PyFloat → ℕ
  | .negZero => 0
  | .inf => 1
  | .negInf => 2
  | .finite value => Encodable.encode value + 3

theorem floatPlace_injective :
  Function.Injective floatPlace
  := by
  intro f g h
  cases f with
  | finite m =>
      cases g with
      | finite n => rw [Encodable.encode_injective (Nat.add_right_cancel h)]
      | _ => cases h
  | _ =>
      cases g with
      | finite n => cases h
      | _ => first | rfl | cases h

/-- A text of a float. -/
def enumeratedFloat (f : PyFloat) : String := toString (floatPlace f) ++ ".0"

/-- Services that write floats by an enumeration and keep JSON values as they are. -/
def spelledWire : Wire where
  reprFloat := enumeratedFloat
  isPrintable := fun _ => true
  dumps := fun dp => dp.type
  parse := fun _ => .error (.keyError "")
  isoformat := fun _ => ""
  fromisoformat := fun _ => 0

/-- Digests that keep their input. -/
def spelledSealing : Sealing where
  sessionId := "s"
  literals := spelledWire.toLiterals
  cipher := { encrypt := id, decrypt := id, mac := id }
  sha256 := id
  dumps := fun _ => ""
  loads := .str

/-- Leaves that dump a value as it is. -/
def spelledLeaves : Leaves where
  config := fun _ => ⟨false, false, true⟩
  dump := fun _ value => value
  parse := fun _ value => .ok value

theorem reprFloat_spelledWire (f : PyFloat) :
  spelledWire.reprFloat f = toString (floatPlace f) ++ ".0"
  := rfl

theorem floatTexts_spelledWire :
  spelledWire.FloatTexts
  where
  injective := by
    intro f g h
    apply floatPlace_injective
    exact Readable.natText_inj.mp ((String.append_left_inj ".0").mp h)
  numeric := by
    intro f c hc
    rw [reprFloat_spelledWire, String.toList_append, List.mem_append] at hc
    rcases hc with hc | hc
    · rw [Nat.toString_eq_repr, Nat.toList_repr] at hc
      apply Literals.isNumeric_of_isDigit
      exact Or.inl (Nat.isDigit_of_mem_toDigits (by decide) (by decide) hc)
    · have hall : ".0".toList.all (fun d => Literals.IsNumeric d) = true := by decide
      exact of_decide_eq_true (List.all_eq_true.mp hall c hc)
  marked := by
    intro f
    use '.'
    constructor
    · rw [reprFloat_spelledWire, String.toList_append]
      apply List.mem_append_right
      decide
    · exact Or.inl rfl

theorem collisionless_spelledWire :
  Collisionless spelledWire spelledSealing spelledLeaves
  where
  literals := rfl
  floats := floatTexts_spelledWire
  sha256 := Function.injective_id
  mac := Function.injective_id
  dump := fun _ _ _ => rfl

/-- A DataPoint with a JSON value. -/
def jsonPoint (json : Json) (hashed : Hashed) (h : makeHashable json.toValue = .ok hashed) :
    BaseDataPoint where
  type := "t"
  value := json.toValue
  retrievedBy := "op"
  firstRetrieved := 0
  lastRetrieved := 0
  hashed := hashed
  hashable := h

/-- Two objects with the same items in different orders. -/
theorem identityAgrees_iff_objects :
  let a := Json.object [("b", .list [.int 1]), ("a", .str "x")]
  let b := Json.object [("a", .str "x"), ("b", .list [.int 1])]
  IdentityAgrees spelledWire spelledSealing spelledLeaves a b
      (jsonPoint a b.hash rfl) (jsonPoint b b.hash rfl)
    ↔ (Respelled a.sortKeys b.sortKeys → a.sortKeys.kinds = b.sortKeys.kinds)
  := by
  apply identityAgrees_iff collisionless_spelledWire
  · exact ⟨by decide, ⟨trivial, trivial⟩, trivial, trivial⟩
  · exact ⟨by decide, trivial, ⟨trivial, trivial⟩, trivial⟩
  · rfl
  · rfl
  · rfl

/-- `true` and `1` are one DataPoint in memory and two in Redis. -/
theorem true_and_one_disagree :
  let d := jsonPoint (.bool true) (.bool true) rfl
  let d' := jsonPoint (.int 1) (.int 1) rfl
  ¬IdentityAgrees spelledWire spelledSealing spelledLeaves (.bool true) (.int 1) d d'
  := by
  intro d d' hagrees
  have htexts := hagrees.redis.mp rfl
  revert htexts
  decide

end Orcastork
