/-
Baselib.Http.HeaderList — the ordered list of header fields of
`http/HeaderList.h`: its validation, its members, and its conversions to
and from the unordered map.

A member which throws returns the list it leaves behind beside the
exception. The order in which an unordered map is iterated is the order of
a list of its entries. What `std::sort` does is a parameter.
-/
import Baselib.HttpServer.ParserHelpers
import Baselib.Lib.KeySort
import Baselib.Lib.Transition

namespace Baselib.Http

open Lib
open HttpServer (HeadersMap)

inductive HeaderException where
  | invalidDataFormat (message : Octets)
  | notFound (message : Octets)
  deriving DecidableEq, Repr

/-- `class Header`: a name exactly as it was given, and its value. -/
structure Header where
  name : Octets
  value : Octets
  deriving DecidableEq, Repr

/-- `class HeaderListT`. -/
structure HeaderList where
  headers : List Header := []
  deriving DecidableEq, Repr

namespace HeaderList

/-- `g_valueSeparator`. -/
def valueSeparator : Octets := octets ", "

/-! ## The RFC 9110 character classes and the ASCII-only case fold -/

def isTokenChar (octet : UInt8) : Bool :=
  ('a'.toUInt8 ≤ octet && octet ≤ 'z'.toUInt8) || ('A'.toUInt8 ≤ octet && octet ≤ 'Z'.toUInt8) ||
    ('0'.toUInt8 ≤ octet && octet ≤ '9'.toUInt8) ||
    ['!', '#', '$', '%', '&', '\'', '*', '+', '-', '.', '^', '_', '`', '|', '~'].any
      fun ch => ch.toUInt8 == octet

def isFieldVChar (octet : UInt8) : Bool := 0x21 ≤ octet && octet != 0x7F

def isSpaceOrTab (ch : UInt8) : Bool := ch == ' '.toUInt8 || ch == '\t'.toUInt8

def toLowerAsciiChar (octet : UInt8) : UInt8 :=
  if 'A'.toUInt8 ≤ octet && octet ≤ 'Z'.toUInt8 then octet - 'A'.toUInt8 + 'a'.toUInt8 else octet

def lessIgnoreCase : Octets → Octets → Bool
  | l :: lhs, r :: rhs =>
    let left := toLowerAsciiChar l
    let right := toLowerAsciiChar r
    if left ≠ right then left < right else lessIgnoreCase lhs rhs
  | lhs, rhs => lhs.length < rhs.length

def equalsIgnoreCase (lhs rhs : Octets) : Bool :=
  if lhs.length ≠ rhs.length then false
  else (lhs.zip rhs).all fun pair => toLowerAsciiChar pair.1 == toLowerAsciiChar pair.2

/-- `operator<` of two texts. -/
def lessText : Octets → Octets → Bool
  | l :: lhs, r :: rhs => if l ≠ r then l < r else lessText lhs rhs
  | lhs, rhs => lhs.length < rhs.length

def hasLeadingOrTrailingWhitespace (value : Octets) : Bool :=
  value.head?.any isSpaceOrTab || value.getLast?.any isSpaceOrTab

/-! ## Validation -/

def isValidHeaderName (name : Octets) : Bool := !name.isEmpty && name.all isTokenChar

def isValidHeaderValue (value : Octets) : Bool :=
  (value.all fun ch => isFieldVChar ch || isSpaceOrTab ch) &&
    !hasLeadingOrTrailingWhitespace value

def validateHeader (name value : Octets) : Except HeaderException Unit :=
  if !isValidHeaderName name then
    .error (.invalidDataFormat (octets ("Invalid HTTP header - the name is empty or contains a " ++
      "character which is not allowed in a header name")))
  else if hasLeadingOrTrailingWhitespace value then
    .error (.invalidDataFormat (octets "Invalid HTTP header '" ++ name ++
      octets "' - the value begins or ends with a space or a horizontal tab"))
  else if !isValidHeaderValue value then
    .error (.invalidDataFormat (octets "Invalid HTTP header '" ++ name ++
      octets "' - the value contains a character which is not allowed in a header value"))
  else .ok ()

/-! ## The list itself -/

/-- The position of the first field with this name, or the size. -/
def indexOf (l : HeaderList) (name : Octets) : Nat :=
  l.headers.findIdx fun header => equalsIgnoreCase header.name name

def clear (_ : HeaderList) : HeaderList := {}

def append (l : HeaderList) (name value : Octets) : HeaderList × Except HeaderException Unit :=
  match validateHeader name value with
  | .error e => (l, .error e)
  | .ok () => (⟨l.headers ++ [⟨name, value⟩]⟩, .ok ())

/-- The loop of `set` and `removeAll`: from `i` down to `stop`, every field
with this name is erased where it stands. -/
def eraseMatching (name : Octets) (stop : Nat) : Nat → List Header → List Header
  | 0, headers => headers
  | i + 1, headers =>
    if stop < i + 1 then
      eraseMatching name stop i
        (if headers[i]?.any fun header => equalsIgnoreCase header.name name
          then headers.eraseIdx i else headers)
    else headers

/-- The name at `pos` is the one just assigned in every round of the loop. -/
def set (l : HeaderList) (name value : Octets) : HeaderList × Except HeaderException Unit :=
  match validateHeader name value with
  | .error e => (l, .error e)
  | .ok () =>
    let pos := l.indexOf name
    if pos = l.headers.length then (⟨l.headers ++ [⟨name, value⟩]⟩, .ok ())
    else (⟨eraseMatching name (pos + 1) l.headers.length
      (l.headers.set pos ⟨name, value⟩)⟩, .ok ())

def removeAll (l : HeaderList) (name : Octets) : HeaderList × Nat :=
  let headers := eraseMatching name 0 l.headers.length l.headers
  (⟨headers⟩, l.headers.length - headers.length)

/-! ## Lookup -/

def has (l : HeaderList) (name : Octets) : Bool := l.indexOf name != l.headers.length

def count (l : HeaderList) (name : Octets) : Nat :=
  l.headers.foldl
    (fun result header => if equalsIgnoreCase header.name name then result + 1 else result) 0

def tryGet (l : HeaderList) (name : Octets) : Option Octets :=
  let pos := l.indexOf name
  if pos = l.headers.length then none else (l.headers[pos]?).map (·.value)

def get (l : HeaderList) (name : Octets) : Except HeaderException Octets :=
  match l.tryGet name with
  | none =>
    .error (.notFound (octets "The HTTP header requested is not present in the header list"))
  | some value => .ok value

def getAll (l : HeaderList) (name : Octets) : List Octets :=
  l.headers.foldl
    (fun result header =>
      if equalsIgnoreCase header.name name then result ++ [header.value] else result) []

/-! ## Conversion to and from the map -/

/-- An order in which the entries of a hash table are iterated, for every
table. -/
structure Iteration where
  entries : List (Octets × Octets) → List (Octets × Octets)
  perm : ∀ m, (entries m).Perm m

/-- `m[ key ] = value`. -/
def assign (m : List (Octets × Octets)) (key value : Octets) : List (Octets × Octets) :=
  if key ∈ m.map Prod.fst then m.map fun entry => if entry.1 = key then (key, value) else entry
  else m ++ [(key, value)]

/-- One round of the loop of `toMap`. -/
def foldHeader (iteration : Iteration) (result : List (Octets × Octets)) (header : Header) :
    List (Octets × Octets) :=
  match (iteration.entries result).find? fun current =>
    equalsIgnoreCase current.1 header.name with
  | none => assign result header.name header.value
  | some pos => assign result pos.1 (pos.2 ++ valueSeparator ++ header.value)

/-- `toMap`: the entries of the map. -/
def toMap (iteration : Iteration) (l : HeaderList) : List (Octets × Octets) :=
  l.headers.foldl (foldHeader iteration) []

/-- The comparator of `fromMap`. -/
def headerLess (lhs rhs : Header) : Bool :=
  if !equalsIgnoreCase lhs.name rhs.name then lessIgnoreCase lhs.name rhs.name
  else lessText lhs.value rhs.value

/-- What `std::sort` with the comparator promises. -/
def IsHeaderSort (sort : List Header → List Header) : Prop :=
  ∀ l, (sort l).Perm l ∧ (sort l).Pairwise fun a b => headerLess b a = false

/-- The loop of `fromMap`, over the entries in the order they are iterated. -/
def appendAll : List (Octets × Octets) → HeaderList → Except HeaderException HeaderList
  | [], result => .ok result
  | pair :: pairs, result =>
    match result.append pair.1 pair.2 with
    | (result, .ok ()) => appendAll pairs result
    | (_, .error e) => .error e

def fromMap (sort : List Header → List Header) (pairs : List (Octets × Octets)) :
    Except HeaderException HeaderList :=
  match appendAll pairs {} with
  | .error e => .error e
  | .ok result => .ok ⟨sort result.headers⟩

/-! ## Runs -/

/-- What a caller can do to a list. An unordered map comes with the order in
which it is iterated. -/
inductive Operation where
  | append (name value : Octets)
  | set (name value : Octets)
  | removeAll (name : Octets)
  | clear
  | fromMap (headers : HeadersMap)

def step (sort : List Header → List Header) (l : HeaderList) : Operation → HeaderList
  | .append name value => (l.append name value).1
  | .set name value => (l.set name value).1
  | .removeAll name => (l.removeAll name).1
  | .clear => l.clear
  | .fromMap headers =>
    match fromMap sort headers.entries with
    | .error _ => l
    | .ok result => result

/-- The lists a sequence of operations leads to. -/
def Reached (sort : List Header → List Header) (l : HeaderList) : Prop :=
  Transition.Reachable (fun l operation => some (step sort l operation)) (· = {}) l

end HeaderList

end Baselib.Http
