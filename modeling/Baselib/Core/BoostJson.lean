/-
Baselib.Core.BoostJson — how JSON values are written: `canonicalizeValue`,
`prettyPrint` and `saveToString` of `core/detail/BoostJsonImpl.h`.

Boost's own serializer is the compact writer; what it makes of a string and of
a number is given (`Serializer`). An integer is one kind here: whether boost
keeps it as `int64` or `uint64` shows in no text and in no comparison. A key
is the octets it is sorted by, and a double is its datum, so that the two
zeros are two values.
-/
import Baselib.Lib.KeySort
import Baselib.Lib.Octets
import Baselib.Lib.Transition

namespace Baselib.Core.BoostJson

open Lib

inductive Number (δ : Type) where
  | integer (value : Int)
  | double (value : δ)
  deriving DecidableEq

inductive Value (δ : Type) where
  | null
  | bool (value : Bool)
  | number (value : Number δ)
  | string (value : Octets)
  | array (items : List (Value δ))
  | object (members : List (Octets × Value δ))

abbrev Members (δ : Type) := List (Octets × Value δ)

inductive Exception where
  | argument
  | nonFinite
  deriving DecidableEq

/-! ## Literals -/

/-- One character of a literal, after a reverse solidus or not; `none` is the
quote which closes it. -/
def literalStep (isEscaped : Bool) (c : UInt8) : Option Bool :=
  if isEscaped then some false
  else if c = '\\'.toUInt8 then some true
  else if c = '"'.toUInt8 then none
  else some false

/-- What can stand between the quotes of a literal. -/
def IsLiteralBody (body : Octets) : Prop := Transition.run literalStep false body = some false

instance (body : Octets) : Decidable (IsLiteralBody body) :=
  inferInstanceAs (Decidable (_ = _))

def isNumberCharacter (c : UInt8) : Bool :=
  ('0'.toUInt8 ≤ c ∧ c ≤ '9'.toUInt8) ∨
    c ∈ ['-'.toUInt8, '+'.toUInt8, '.'.toUInt8, 'E'.toUInt8, 'e'.toUInt8]

/-- Boost's serialization of strings and of numbers: a string is a literal and
a number is made of the characters of numbers, and neither is written like
another one. -/
structure Serializer (δ : Type) where
  isFinite : δ → Bool
  string : Octets → Octets
  number : Number δ → Octets
  string_literal : ∀ s, ∃ body, string s = '"'.toUInt8 :: body ++ ['"'.toUInt8] ∧
    IsLiteralBody body
  string_injective : Function.Injective string
  number_text : ∀ n, (∀ d, n = .double d → isFinite d) →
    number n ≠ [] ∧ ∀ c ∈ number n, isNumberCharacter c
  number_injective : ∀ n n', (∀ d, n = .double d → isFinite d) →
    (∀ d, n' = .double d → isFinite d) → number n = number n' → n = n'

variable {δ : Type} (serializer : Serializer δ)

/-! ## The compact text -/

mutual

/-- `boost::json::serialize` -/
def serialize : Value δ → Octets
  | .null => octets "null"
  | .bool true => octets "true"
  | .bool false => octets "false"
  | .number n => serializer.number n
  | .string s => serializer.string s
  | .array [] => octets "[]"
  | .array (item :: items) => '['.toUInt8 :: (serialize item ++ serializeItems items)
  | .object [] => octets "\x7b\x7d"
  | .object ((key, v) :: members) =>
    '\x7b'.toUInt8 :: (serializer.string key ++ ':'.toUInt8 :: (serialize v ++
      serializeMembers members))

/-- The items after the first, and the end of the array. -/
def serializeItems : List (Value δ) → Octets
  | [] => octets "]"
  | item :: items => ','.toUInt8 :: (serialize item ++ serializeItems items)

def serializeMembers : List (Octets × Value δ) → Octets
  | [] => octets "\x7d"
  | (key, v) :: members =>
    ','.toUInt8 :: (serializer.string key ++ ':'.toUInt8 :: (serialize v ++
      serializeMembers members))

end

/-! ## The pretty text -/

def spaces (n : Nat) : Octets := List.replicate n ' '.toUInt8

mutual

/-- `prettyPrintImpl`; the indent is a number of spaces. -/
def prettyPrintImpl (indent : Nat) : Value δ → Octets
  | .null => octets "null"
  | .bool true => octets "true"
  | .bool false => octets "false"
  | .number n => serializer.number n
  | .string s => serializer.string s
  | .array [] => octets "[]"
  | .array (item :: items) =>
    octets "[\n" ++ spaces (indent + 4) ++ prettyPrintImpl (indent + 4) item ++
      prettyPrintItems indent items
  | .object [] => octets "\x7b\x7d"
  | .object ((key, v) :: members) =>
    octets "\x7b\n" ++ spaces (indent + 4) ++ serializer.string key ++ octets ": " ++
      prettyPrintImpl (indent + 4) v ++ prettyPrintMembers indent members

/-- The items after the first, and the end of the array. -/
def prettyPrintItems (indent : Nat) : List (Value δ) → Octets
  | [] => octets "\n" ++ spaces indent ++ octets "]"
  | item :: items =>
    octets ",\n" ++ spaces (indent + 4) ++ prettyPrintImpl (indent + 4) item ++
      prettyPrintItems indent items

def prettyPrintMembers (indent : Nat) : List (Octets × Value δ) → Octets
  | [] => octets "\n" ++ spaces indent ++ octets "\x7d"
  | (key, v) :: members =>
    octets ",\n" ++ spaces (indent + 4) ++ serializer.string key ++ octets ": " ++
      prettyPrintImpl (indent + 4) v ++ prettyPrintMembers indent members

end

def prettyPrint (v : Value δ) : Octets := prettyPrintImpl serializer 0 v

/-! ## The canonical value -/

/-- What the comparison of two keys goes by. -/
def keyOctets (key : Octets) : List Nat := key.map UInt8.toNat

def sortMembers {α : Type} (members : List (Octets × α)) : List (Octets × α) :=
  members.insertionSort fun a b => keyOctets a.1 ≤ keyOctets b.1

mutual

def canonicalizeValue : Value δ → Value δ
  | .array items => .array (canonicalizeItems items)
  | .object members => .object (sortMembers (canonicalizeMembers members))
  | v => v

def canonicalizeItems : List (Value δ) → List (Value δ)
  | [] => []
  | item :: items => canonicalizeValue item :: canonicalizeItems items

def canonicalizeMembers : List (Octets × Value δ) → List (Octets × Value δ)
  | [] => []
  | (key, v) :: members => (key, canonicalizeValue v) :: canonicalizeMembers members

end

/-! ## Saving -/

mutual

/-- No object has a key twice. -/
def UniqueKeys : Value δ → Prop
  | .array items => UniqueKeysItems items
  | .object members => (members.map Prod.fst).Nodup ∧ UniqueKeysMembers members
  | _ => True

def UniqueKeysItems : List (Value δ) → Prop
  | [] => True
  | item :: items => UniqueKeys item ∧ UniqueKeysItems items

def UniqueKeysMembers : List (Octets × Value δ) → Prop
  | [] => True
  | (_, v) :: members => UniqueKeys v ∧ UniqueKeysMembers members

end

/-- A value as boost keeps it. -/
structure Document (δ : Type) where
  value : Value δ
  uniqueKeys : UniqueKeys value

mutual

/-- Whether `chkNoNonFiniteDoubles` lets the value pass. -/
def isWritable : Value δ → Bool
  | .number (.double d) => serializer.isFinite d
  | .array items => isWritableItems items
  | .object members => isWritableMembers members
  | _ => true

def isWritableItems : List (Value δ) → Bool
  | [] => true
  | item :: items => isWritable item && isWritableItems items

def isWritableMembers : List (Octets × Value δ) → Bool
  | [] => true
  | (_, v) :: members => isWritable v && isWritableMembers members

end

def saveToString (val : Document δ) (isPrettyPrint canonicalize : Bool) :
    Except Exception Octets :=
  if canonicalize && isPrettyPrint then .error .argument
  else if isWritable serializer val.value = false then .error .nonFinite
  else if canonicalize then .ok (serialize serializer (canonicalizeValue val.value))
  else if isPrettyPrint then .ok (prettyPrint serializer val.value)
  else .ok (serialize serializer val.value)

end Baselib.Core.BoostJson
