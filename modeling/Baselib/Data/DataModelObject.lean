/-
Baselib.Data.DataModelObject — saving and loading of the data model objects of
`data/DataModelObject.h`, as the macros of `data/DataModelObjectDefs.h` declare
their classes.

A class is the list of its properties, in the order in which
`serializeProperties` names them; its objects have a member for each of them,
of the type its macro declares. Loading makes a new object and lets it
deserialize the document. A value which is moved out of the document is not
looked at again, so documents are not changed.

The detection of unknown properties, which no loading function turns on, the
read-only mark and the logs are left out.
-/
import Baselib.Data.Json
import Baselib.Lib.SortedMap
import Mathlib.Data.String.Basic

namespace Baselib.Data.DataModelObject

open Lib
open Json (Value Error ScalarType ItemType Backend stringTo)

variable {δ : Type} [LinearOrder δ]

/-! ## Classes -/

mutual

inductive Kind where
  | scalar (type : ScalarType) (isRequired : Bool)
  | string (isRequired : Bool)
  | simpleVector (type : ItemType)
  | simpleSet (type : ItemType)
  | stringOrArray
  | custom
  | complex (isPartial : Bool) (properties : Properties)
  | complexVector (isPartial : Bool) (properties : Properties)
  | complexMap (isPartial : Bool) (properties : Properties)
  | map (type : ItemType)

inductive Properties where
  | nil
  | cons (name jsonProp : String) (kind : Kind) (rest : Properties)

end

structure Class where
  isPartial : Bool
  properties : Properties

def Properties.jsonProps : Properties → List String
  | .nil => []
  | .cons _ jsonProp _ rest => jsonProp :: rest.jsonProps

/-! ## Objects -/

instance : (type : ScalarType) → LinearOrder (type.Carrier δ)
  | .bool => inferInstanceAs (LinearOrder Bool)
  | .integral type => inferInstanceAs (LinearOrder type.Carrier)
  | .double => inferInstanceAs (LinearOrder δ)

instance : (type : ItemType) → LinearOrder (type.Carrier δ)
  | .scalar type => inferInstanceAs (LinearOrder (type.Carrier δ))
  | .string => inferInstanceAs (LinearOrder String)

structure ScalarMember (α : Type) where
  value : α
  isSet : Bool

structure Object (Fields δ : Type) where
  fields : Fields
  unmapped : Json.Members δ

mutual

/-- The member a property declares. -/
def Kind.Member (δ : Type) [LinearOrder δ] : Kind → Type
  | .scalar type _ => ScalarMember (type.Carrier δ)
  | .string _ => String
  | .simpleVector type => List (type.Carrier δ)
  | .simpleSet type => SortedMap (type.Carrier δ) Unit
  | .stringOrArray => List String
  | .custom => Value δ
  | .complex _ properties => Option (Object (properties.Fields δ) δ)
  | .complexVector _ properties => List (Object (properties.Fields δ) δ)
  | .complexMap _ properties => SortedMap String (Object (properties.Fields δ) δ)
  | .map type => SortedMap String (type.Carrier δ)

def Properties.Fields (δ : Type) [LinearOrder δ] : Properties → Type
  | .nil => Unit
  | .cons _ _ kind rest => kind.Member δ × rest.Fields δ

end

abbrev Class.Instance (δ : Type) [LinearOrder δ] (cls : Class) : Type :=
  Object (cls.properties.Fields δ) δ

def Kind.initial (b : Backend δ) : (kind : Kind) → kind.Member δ
  | .scalar type _ => (⟨type.default b, false⟩ : ScalarMember (type.Carrier δ))
  | .string _ => ""
  | .simpleVector type => ([] : List (type.Carrier δ))
  | .simpleSet type => (SortedMap.empty : SortedMap (type.Carrier δ) Unit)
  | .stringOrArray => ([] : List String)
  | .custom => (.null : Value δ)
  | .complex _ properties => (none : Option (Object (properties.Fields δ) δ))
  | .complexVector _ properties => ([] : List (Object (properties.Fields δ) δ))
  | .complexMap _ properties => (SortedMap.empty : SortedMap String (Object (properties.Fields δ) δ))
  | .map type => (SortedMap.empty : SortedMap String (type.Carrier δ))

def Properties.initial (b : Backend δ) : (properties : Properties) → properties.Fields δ
  | .nil => ()
  | .cons _ _ kind rest => (kind.initial b, rest.initial b)

def createInstance (b : Backend δ) (properties : Properties) : Object (properties.Fields δ) δ where
  fields := properties.initial b
  unmapped := []

/-! ## Saving -/

def requiredPropertyNotSet (name operation : String) : Error :=
  .userMessage ("Required property '" ++ name ++ "' is not provided when " ++ operation)

/-- The properties are followed by the unmapped members, unless the class is
partial. -/
def Object.save {Fields : Type} (serialize : Fields → Json.Members δ → Except Error (Json.Members δ))
    (isPartial : Bool) (o : Object Fields δ) : Except Error (Json.Members δ) := do
  let doc ← serialize o.fields []
  return if isPartial then doc else AssocList.emplaceAll doc o.unmapped

/-! ### What each macro emplaces in the document, if anything -/

section

variable {Fields : Type} (canonicalize : Bool)

def scalarSerialize (name : String) (type : ScalarType) (isRequired : Bool)
    (m : ScalarMember (type.Carrier δ)) : Except Error (Option (Value δ)) :=
  if canonicalize || m.isSet then .ok (some (type.toValue m.value))
  else if isRequired then .error (requiredPropertyNotSet name "saving")
  else .ok none

def stringSerialize (name : String) (isRequired : Bool) (m : String) :
    Except Error (Option (Value δ)) :=
  if canonicalize || m != "" then .ok (some (.string m))
  else if isRequired then .error (requiredPropertyNotSet name "saving")
  else .ok none

def simpleContainerSerialize (type : ItemType) (items : List (type.Carrier δ)) :
    Except Error (Option (Value δ)) :=
  .ok (if !canonicalize && items.isEmpty then none else some (.array (items.map type.toValue)))

def stringOrArraySerialize (m : List String) : Except Error (Option (Value δ)) :=
  .ok (match m with
    | [] => if canonicalize then some (.array []) else none
    | [item] => some (.string item)
    | items => some (.array (items.map .string)))

def customSerialize (m : Value δ) : Except Error (Option (Value δ)) :=
  .ok (if canonicalize || !m.isNull then some m else none)

def complexSerialize (serialize : Object Fields δ → Except Error (Json.Members δ)) :
    Option (Object Fields δ) → Except Error (Option (Value δ))
  | none => .ok (if canonicalize then some (.object []) else none)
  | some o => do
    let doc ← serialize o
    return some (.object doc)

def complexVectorSerialize (serialize : Object Fields δ → Except Error (Json.Members δ))
    (m : List (Object Fields δ)) : Except Error (Option (Value δ)) :=
  if !canonicalize && m.isEmpty then .ok none
  else do
    let items ← m.mapM serialize
    return some (.array (items.map .object))

def complexMapSerialize (serialize : Object Fields δ → Except Error (Json.Members δ))
    (m : SortedMap String (Object Fields δ)) : Except Error (Option (Value δ)) :=
  if !canonicalize && m.entries.isEmpty then .ok none
  else do
    let items ← m.entries.mapM fun e => do
      let doc ← serialize e.2
      return (e.1, Value.object doc)
    return some (.object (AssocList.emplaceAll [] items))

def mapSerialize (type : ItemType) (m : SortedMap String (type.Carrier δ)) :
    Except Error (Option (Value δ)) :=
  .ok (if !canonicalize && m.entries.isEmpty then none
    else some (.object (AssocList.emplaceAll [] (m.entries.map fun e => (e.1, type.toValue e.2)))))

end

/-- Nothing is emplaced for a property which is not saved. -/
def emplaceProperty (jsonProp : String) (value : Option (Value δ)) (doc : Json.Members δ) :
    Json.Members δ :=
  match value with
  | some v => AssocList.emplace jsonProp v doc
  | none => doc

mutual

def Kind.serialize (canonicalize : Bool) (name : String) :
    (kind : Kind) → kind.Member δ → Except Error (Option (Value δ))
  | .scalar type isRequired, m => scalarSerialize canonicalize name type isRequired m
  | .string isRequired, m => stringSerialize canonicalize name isRequired m
  | .simpleVector type, m => simpleContainerSerialize canonicalize type m
  | .simpleSet type, m => simpleContainerSerialize canonicalize type (SortedMap.keys m)
  | .stringOrArray, m => stringOrArraySerialize canonicalize m
  | .custom, m => customSerialize canonicalize m
  | .complex isPartial properties, m =>
    complexSerialize canonicalize
      (Object.save (fun fields doc => properties.serialize canonicalize fields doc) isPartial) m
  | .complexVector isPartial properties, m =>
    complexVectorSerialize canonicalize
      (Object.save (fun fields doc => properties.serialize canonicalize fields doc) isPartial) m
  | .complexMap isPartial properties, m =>
    complexMapSerialize canonicalize
      (Object.save (fun fields doc => properties.serialize canonicalize fields doc) isPartial) m
  | .map type, m => mapSerialize canonicalize type m

def Properties.serialize (canonicalize : Bool) :
    (properties : Properties) → properties.Fields δ → Json.Members δ → Except Error (Json.Members δ)
  | .nil, _, doc => .ok doc
  | .cons name jsonProp kind rest, (fields : kind.Member δ × rest.Fields δ), doc => do
    let value ← kind.serialize canonicalize name fields.1
    rest.serialize canonicalize fields.2 (emplaceProperty jsonProp value doc)

end

/-- `getJsonObject`. -/
def save (canonicalize : Bool) (cls : Class) (o : cls.Instance δ) : Except Error (Json.Members δ) :=
  Object.save (cls.properties.serialize canonicalize) cls.isPartial o

/-! ## Loading -/

/-- The members no property has processed are kept, unless the class is
partial. -/
def Object.load {Fields : Type}
    (deserialize : Json.Members δ → Fields → Except Error (Fields × List String))
    (isPartial : Bool) (o : Object Fields δ) (map : Json.Members δ) :
    Except Error (Object Fields δ) := do
  let (fields, processed) ← deserialize map o.fields
  return {
    fields := fields
    unmapped := if isPartial then o.unmapped
      else AssocList.emplaceAll [] (map.filter fun e => !processed.contains e.1) }

/-- An error in a property names it. -/
def inProperty {α : Type} (name : String) : Except Error α → Except Error α
  | .ok a => .ok a
  | .error e => .error (e.withContext name)

/-! ### The member each macro reads, and whether the property was processed -/

section

variable {Fields : Type} (b : Backend δ) (jsonProp : String) (map : Json.Members δ)

def scalarDeserialize (name : String) (type : ScalarType) (isRequired : Bool)
    (m : ScalarMember (type.Carrier δ)) : Except Error (ScalarMember (type.Carrier δ) × Bool) :=
  match map.present jsonProp with
  | some v => do
    let value ← type.valueTo b v
    return (⟨value, true⟩, true)
  | none =>
    if isRequired then .error (requiredPropertyNotSet name "loading")
    else .ok (⟨m.value, false⟩, false)

def stringDeserialize (name : String) (isRequired : Bool) (m : String) :
    Except Error (String × Bool) := do
  let m ← match map.present jsonProp with
    | some v => stringTo v
    | none => .ok m
  if isRequired && m == "" then .error (requiredPropertyNotSet name "loading")
  else .ok (m, (map.present jsonProp).isSome)

/-- The value of the property is read, if there is one. -/
def deserializePresent {M : Type} (read : Value δ → Except Error M) (m : M) :
    Except Error (M × Bool) :=
  match map.present jsonProp with
  | none => .ok (m, false)
  | some v => do
    let m ← read v
    return (m, true)

def simpleContainerRead {C : Type} (type : ItemType) (empty : C)
    (inserter : C → type.Carrier δ → C) (v : Value δ) : Except Error C := do
  let items ← (← v.asArray).mapM (type.itemTo b)
  return items.foldl inserter empty

def stringOrArrayRead : Value δ → Except Error (List String)
  | .string item => .ok [item]
  | v => do (← v.asArray).mapM stringTo

def complexRead (load : Json.Members δ → Except Error (Object Fields δ)) (v : Value δ) :
    Except Error (Option (Object Fields δ)) := do
  let o ← load (← v.asObject)
  return some o

def complexVectorRead (load : Json.Members δ → Except Error (Object Fields δ)) (v : Value δ) :
    Except Error (List (Object Fields δ)) := do
  (← v.asArray).mapM fun item => do load (← item.asObject)

def complexMapRead (load : Json.Members δ → Except Error (Object Fields δ)) (v : Value δ) :
    Except Error (SortedMap String (Object Fields δ)) := do
  let items ← (← v.asObject).mapM fun e => do
    let o ← load (← e.2.asObject)
    return (e.1, o)
  return items.foldl (fun temp e => temp.emplace e.1 e.2) SortedMap.empty

def mapRead (type : ItemType) (v : Value δ) : Except Error (SortedMap String (type.Carrier δ)) := do
  let items ← (← v.asObject).mapM fun e => do
    let item ← type.valueTo b e.2
    return (e.1, item)
  return items.foldl (fun temp e => temp.assign e.1 e.2) SortedMap.empty

end

mutual

def Kind.deserialize (b : Backend δ) (name jsonProp : String) (map : Json.Members δ) :
    (kind : Kind) → kind.Member δ → Except Error (kind.Member δ × Bool)
  | .scalar type isRequired, m => scalarDeserialize b jsonProp map name type isRequired m
  | .string isRequired, m => stringDeserialize jsonProp map name isRequired m
  | .simpleVector type, (m : List (type.Carrier δ)) =>
    deserializePresent jsonProp map
      (simpleContainerRead (C := List (type.Carrier δ)) b type [] fun temp item => temp ++ [item]) m
  | .simpleSet type, m =>
    deserializePresent jsonProp map
      (simpleContainerRead (C := SortedMap (type.Carrier δ) Unit) b type SortedMap.empty
        fun temp item => temp.assign item ()) m
  | .stringOrArray, m => deserializePresent jsonProp map stringOrArrayRead m
  | .custom, m => deserializePresent jsonProp map Except.ok m
  | .complex isPartial properties, m =>
    deserializePresent jsonProp map (complexRead
      ((createInstance b properties).load (fun map fields => properties.deserialize b map fields)
        isPartial)) m
  | .complexVector isPartial properties, m =>
    deserializePresent jsonProp map (complexVectorRead
      ((createInstance b properties).load (fun map fields => properties.deserialize b map fields)
        isPartial)) m
  | .complexMap isPartial properties, m =>
    deserializePresent jsonProp map (complexMapRead
      ((createInstance b properties).load (fun map fields => properties.deserialize b map fields)
        isPartial)) m
  | .map type, m => deserializePresent jsonProp map (mapRead b type) m

/-- The members, and the names which were processed. -/
def Properties.deserialize (b : Backend δ) : (properties : Properties) → Json.Members δ →
    properties.Fields δ → Except Error (properties.Fields δ × List String)
  | .nil, _, fields => .ok (fields, [])
  | .cons name jsonProp kind rest, map, (fields : kind.Member δ × rest.Fields δ) => do
    let (m, processed) ← inProperty name (kind.deserialize b name jsonProp map fields.1)
    let (ms, processedProperties) ← rest.deserialize b map fields.2
    return ((m, ms), if processed then jsonProp :: processedProperties else processedProperties)

end

/-- `loadFromJsonObject`. -/
def load (b : Backend δ) (cls : Class) (map : Json.Members δ) : Except Error (cls.Instance δ) :=
  (createInstance b cls.properties).load (cls.properties.deserialize b) cls.isPartial map

end Baselib.Data.DataModelObject
