/-
Baselib.Data.Json — the values of `core/JsonUtils.h` as the data model sees
them, and how they are converted.

The finite doubles are a linear order `δ`. A number without a fraction is an
integer of any size, whatever kind the backend keeps it in; where it is read as
a double the backend converts it. An object is the list of its members, and a
member is found by the first of its name.
-/
import Baselib.Lib.AssocList

namespace Baselib.Data.Json

open Lib

/-! ## Values -/

inductive Value (δ : Type) where
  | null
  | bool (value : Bool)
  | integer (value : Int)
  | double (value : δ)
  | string (value : String)
  | array (items : List (Value δ))
  | object (members : List (String × Value δ))

abbrev Members (δ : Type) := List (String × Value δ)

variable {δ : Type}

def Value.isNull : Value δ → Bool
  | .null => true
  | _ => false

/-- The member, unless it is null. -/
def Members.present (members : Members δ) (name : String) : Option (Value δ) :=
  (members.lookup name).filter fun v => !v.isNull

namespace Members

variable {map map' added : Members δ} {name : String}

theorem present_of_lookup (h : map.lookup name = map'.lookup name) :
    map.present name = map'.present name :=
  congrArg _ h

theorem present_eq_some {v : Value δ} (h : map.lookup name = some v) (hv : v.isNull = false) :
    map.present name = some v := by
  rw [present, h, Option.filter_some, hv]
  rfl

theorem present_eq_none (h : map.lookup name = none) : map.present name = none := by
  rw [present, h]
  rfl

theorem lookup_of_present {v : Value δ} (h : map.present name = some v) :
    map.lookup name = some v :=
  (Option.filter_eq_some_iff.mp h).1

theorem eq_null_of_present {v : Value δ} (h : map.present name = none)
    (hv : map.lookup name = some v) : v = .null := by
  cases v with
  | null => rfl
  | _ => cases h.symm.trans (present_eq_some hv rfl)

theorem present_emplaceAll (h : added.present name = none) :
    present (AssocList.emplaceAll map added) name = map.present name := by
  cases hv : map.lookup name with
  | none =>
    rw [present_eq_none hv, ← h]
    refine present_of_lookup ?_
    rw [AssocList.lookup_emplaceAll, hv, Option.none_or]
  | some v =>
    refine present_of_lookup ?_
    rw [AssocList.lookup_emplaceAll, hv, Option.some_or]

end Members

/-! ## Errors -/

/-- `jsonException` names the properties its context was extended with. -/
inductive Error where
  | userMessage (text : String)
  | jsonException (properties : List String)
  | badLexicalCast
  deriving DecidableEq

/-- `rethrowWithContext` and `remapIncorrectValueTypeException`. -/
def Error.withContext (property : String) : Error → Error
  | .jsonException properties => .jsonException (properties ++ [property])
  | e => e

def Value.asArray : Value δ → Except Error (List (Value δ))
  | .array items => .ok items
  | _ => .error (.jsonException [])

def Value.asObject : Value δ → Except Error (Members δ)
  | .object members => .ok members
  | _ => .error (.jsonException [])

theorem Value.asArray_eq_ok {v : Value δ} {items : List (Value δ)} :
    v.asArray = .ok items ↔ v = .array items := by
  cases v with
  | array items' => exact ⟨fun h => congrArg _ (Except.ok.inj h), fun h => congrArg _ (Value.array.inj h)⟩
  | _ => exact ⟨nofun, nofun⟩

theorem Value.asObject_eq_ok {v : Value δ} {members : Members δ} :
    v.asObject = .ok members ↔ v = .object members := by
  cases v with
  | object members' =>
    exact ⟨fun h => congrArg _ (Except.ok.inj h), fun h => congrArg _ (Value.object.inj h)⟩
  | _ => exact ⟨nofun, nofun⟩

/-! ## Conversions -/

inductive IntegralType where
  | int
  | int64
  | uint64
  deriving DecidableEq

def IntegralType.min : IntegralType → Int
  | .int => -2147483648
  | .int64 => -9223372036854775808
  | .uint64 => 0

def IntegralType.max : IntegralType → Int
  | .int => 2147483647
  | .int64 => 9223372036854775807
  | .uint64 => 18446744073709551615

inductive ScalarType where
  | bool
  | integral (type : IntegralType)
  | double
  deriving DecidableEq

abbrev IntegralType.Carrier (type : IntegralType) : Type :=
  { value : Int // type.min ≤ value ∧ value ≤ type.max }

def ScalarType.Carrier (δ : Type) : ScalarType → Type
  | .bool => Bool
  | .integral type => type.Carrier
  | .double => δ

/-- What the backend and the platform do with doubles, and with strings which
stand for scalars. -/
structure Backend (δ : Type) where
  zero : δ
  getReal : Int → δ
  lexicalCast : (type : ScalarType) → String → Option (type.Carrier δ)

def ScalarType.default (b : Backend δ) : (type : ScalarType) → type.Carrier δ
  | .bool => false
  | .integral .int => ⟨0, by decide⟩
  | .integral .int64 => ⟨0, by decide⟩
  | .integral .uint64 => ⟨0, by decide⟩
  | .double => b.zero

def ScalarType.toValue : (type : ScalarType) → type.Carrier δ → Value δ
  | .bool, value => .bool value
  | .integral _, value => .integer value.1
  | .double, value => .double value

/-- An integral type is not filled from a double. -/
def ScalarType.valueTo (b : Backend δ) : (type : ScalarType) → Value δ → Except Error (type.Carrier δ)
  | .bool, .bool value => .ok value
  | .integral type, .integer value =>
    if h : type.min ≤ value ∧ value ≤ type.max then .ok ⟨value, h⟩
    else .error (.jsonException [])
  | .double, .double value => .ok value
  | .double, .integer value => .ok (b.getReal value)
  | _, _ => .error (.jsonException [])

def stringTo : Value δ → Except Error String
  | .string value => .ok value
  | _ => .error (.jsonException [])

/-- The items of simple containers and of maps. -/
inductive ItemType where
  | scalar (type : ScalarType)
  | string
  deriving DecidableEq

def ItemType.Carrier (δ : Type) : ItemType → Type
  | .scalar type => type.Carrier δ
  | .string => String

def ItemType.toValue : (type : ItemType) → type.Carrier δ → Value δ
  | .scalar type, item => type.toValue item
  | .string, item => .string item

def ItemType.valueTo (b : Backend δ) : (type : ItemType) → Value δ → Except Error (type.Carrier δ)
  | .scalar type, v => type.valueTo b v
  | .string, v => stringTo v

/-- The item of a simple container, which may be written as a string. -/
def ItemType.itemTo (b : Backend δ) : (type : ItemType) → Value δ → Except Error (type.Carrier δ)
  | .scalar type, .string text =>
    match b.lexicalCast type text with
    | some value => .ok value
    | none => .error .badLexicalCast
  | type, v => type.valueTo b v

/-! ### What is converted and back -/

variable (b : Backend δ)

theorem ScalarType.valueTo_toValue (type : ScalarType) (value : type.Carrier δ) :
    type.valueTo b (type.toValue value) = .ok value := by
  cases type with
  | bool => rfl
  | double => rfl
  | integral type => exact dif_pos value.2

theorem ItemType.valueTo_toValue (type : ItemType) (item : type.Carrier δ) :
    type.valueTo b (type.toValue item) = .ok item := by
  cases type with
  | scalar type => exact type.valueTo_toValue b item
  | string => rfl

theorem ItemType.itemTo_toValue (type : ItemType) (item : type.Carrier δ) :
    type.itemTo b (type.toValue item) = .ok item := by
  cases type with
  | string => rfl
  | scalar type =>
    have hvalue := type.valueTo_toValue b item
    cases type with
    | bool | double | integral _ => exact hvalue

theorem ScalarType.toValue_isNull (type : ScalarType) (value : type.Carrier δ) :
    (type.toValue value).isNull = false := by
  cases type <;> rfl

theorem ItemType.toValue_isNull (type : ItemType) (item : type.Carrier δ) :
    (type.toValue item).isNull = false := by
  cases type with
  | scalar type => exact type.toValue_isNull item
  | string => rfl

end Baselib.Data.Json
