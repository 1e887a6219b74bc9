/-
Baselib.Core.Uri — `baselib/core/Uri.h`, the RFC 3986 URI reference:
the character classes, the component checks, the IP-literal grammar,
`parse` and `toString`.

A `char` is its octet. Every character class of the source compares
against ASCII bounds, so the sign of `char` makes no difference. The
members of `std::string` come from `Baselib.Lib.Octets`; each cut which
can throw `std::out_of_range` is kept as one that can fail, so "throws
nothing else" is a statement about the model and not a property of its
type. The text of every message is the source's.

`parseImpl` fills in one object as it goes. Here each of its blocks
returns the members it sets and the text it leaves over, in the order of
the source: fragment, query, scheme, authority, path.
-/
import Baselib.Lib.Octets

namespace Baselib.Core

open Lib

/-- The exceptions the parser can raise. -/
inductive UriException where
  | invalidDataFormat (message : String)
  | outOfRange
  deriving DecidableEq, Repr

/-- `class UriT`. -/
structure Uri where
  scheme : Octets := []
  userInfo : Octets := []
  host : Octets := []
  path : Octets := []
  query : Octets := []
  fragment : Octets := []
  port : UInt16 := 0
  hasAuthority : Bool := false
  hasUserInfo : Bool := false
  hasPort : Bool := false
  hasQuery : Bool := false
  hasFragment : Bool := false
  isIpLiteral : Bool := false
  deriving DecidableEq, Repr

namespace Uri

/-! ## Character classes (section 2) -/

def isAlpha (ch : UInt8) : Bool :=
  ('a'.toUInt8 ≤ ch && ch ≤ 'z'.toUInt8) || ('A'.toUInt8 ≤ ch && ch ≤ 'Z'.toUInt8)

def isDigit (ch : UInt8) : Bool := '0'.toUInt8 ≤ ch && ch ≤ '9'.toUInt8

def isHexDigit (ch : UInt8) : Bool :=
  isDigit ch || ('a'.toUInt8 ≤ ch && ch ≤ 'f'.toUInt8) || ('A'.toUInt8 ≤ ch && ch ≤ 'F'.toUInt8)

def isUnreserved (ch : UInt8) : Bool :=
  isAlpha ch || isDigit ch ||
    '-'.toUInt8 == ch || '.'.toUInt8 == ch || '_'.toUInt8 == ch || '~'.toUInt8 == ch

def isSubDelim (ch : UInt8) : Bool :=
  '!'.toUInt8 == ch || '$'.toUInt8 == ch || '&'.toUInt8 == ch || '\''.toUInt8 == ch ||
    '('.toUInt8 == ch || ')'.toUInt8 == ch || '*'.toUInt8 == ch || '+'.toUInt8 == ch ||
    ','.toUInt8 == ch || ';'.toUInt8 == ch || '='.toUInt8 == ch

def isUserInfoChar (ch : UInt8) : Bool := isUnreserved ch || isSubDelim ch || ':'.toUInt8 == ch

def isRegNameChar (ch : UInt8) : Bool := isUnreserved ch || isSubDelim ch

def isPathChar (ch : UInt8) : Bool :=
  isUnreserved ch || isSubDelim ch ||
    ':'.toUInt8 == ch || '@'.toUInt8 == ch || '/'.toUInt8 == ch

def isQueryOrFragmentChar (ch : UInt8) : Bool := isPathChar ch || '?'.toUInt8 == ch

def hexValue (ch : UInt8) : Nat :=
  if '0'.toUInt8 ≤ ch && ch ≤ '9'.toUInt8 then ch.toNat - '0'.toNat
  else if 'a'.toUInt8 ≤ ch && ch ≤ 'f'.toUInt8 then ch.toNat - 'a'.toNat + 10
  else ch.toNat - 'A'.toNat + 10

def hexDigit (value : Nat) : UInt8 :=
  UInt8.ofNat (if value < 10 then '0'.toNat + value else 'A'.toNat + (value - 10))

def toLowerAscii (ch : UInt8) : UInt8 :=
  if 'A'.toUInt8 ≤ ch && ch ≤ 'Z'.toUInt8 then ch - 'A'.toUInt8 + 'a'.toUInt8 else ch

/-- `str::to_lower_copy`, in the classic locale. -/
def toLowerCopy (text : Octets) : Octets := text.map toLowerAscii

/-! ## Diagnostics -/

def throwInvalidUri {α : Type} (component reason : String) : Except UriException α :=
  .error (.invalidDataFormat
    ("Invalid URI reference - the " ++ component ++ " " ++ reason))

@[simp] theorem throwInvalidUri_bind {α β : Type} (component reason : String)
    (f : α → Except UriException β) :
    (throwInvalidUri component reason >>= f) = throwInvalidUri component reason := rfl

@[simp] theorem ok_bind {α β : Type} (a : α) (f : α → Except UriException β) :
    (Except.ok a >>= f) = f a := rfl

theorem bind_eq_ok {α β : Type} {x : Except UriException α} {f : α → Except UriException β}
    {b : β} : (x >>= f) = .ok b ↔ ∃ a, x = .ok a ∧ f a = .ok b := by
  cases x with
  | ok a => simp
  | error e => simp [bind, Except.bind]

theorem bind_map_ok {α β γ : Type} (x : Except UriException α) (f : α → β)
    (k : β → Except UriException γ) : (x.map f >>= k) = (x >>= fun a => k (f a)) := by
  cases x <;> rfl

/-- The `std::out_of_range` of a cut. -/
def orOutOfRange {α : Type} : Option α → Except UriException α
  | some x => .ok x
  | none => .error .outOfRange

/-! ## Single components -/

def chkStrictCharacters : Octets → Except UriException Unit
  | [] => .ok ()
  | ch :: rest =>
    if 0x80 ≤ ch then
      throwInvalidUri "reference"
        ("contains a non-ASCII byte; RFC 3986 URIs are ASCII only and IDNA " ++
         "is not supported, so an international host name must be passed as " ++
         "its A-label form")
    else if ch ≤ 0x1F || 0x7F == ch then
      throwInvalidUri "reference" "contains a control character"
    else if ' '.toUInt8 == ch then
      throwInvalidUri "reference" "contains a space, which must be percent-encoded as %20"
    else if '\\'.toUInt8 == ch then
      throwInvalidUri "reference"
        "contains a backslash, which RFC 3986 does not accept as a path separator"
    else chkStrictCharacters rest

/-- What one percent-encoded octet is replaced with: the character itself
when it is unreserved, else the same octet in upper case. -/
def normalizeOctet (toLowerCase : Bool) (h1 h2 : UInt8) : Octets :=
  let octet := (hexValue h1 <<< 4) ||| hexValue h2
  let decoded := UInt8.ofNat octet
  if isUnreserved decoded then
    [if toLowerCase then toLowerAscii decoded else decoded]
  else
    ['%'.toUInt8, hexDigit ((octet >>> 4) &&& 0x0F), hexDigit (octet &&& 0x0F)]

def normalizeComponent (isAllowed : UInt8 → Bool) (component : String) (toLowerCase : Bool) :
    Octets → Except UriException Octets
  | [] => .ok []
  | ch :: rest =>
    if '%'.toUInt8 != ch then
      if !isAllowed ch then
        throwInvalidUri component "contains a character which is not allowed in it"
      else do
        let result ← normalizeComponent isAllowed component toLowerCase rest
        return (if toLowerCase then toLowerAscii ch else ch) :: result
    else
      match rest with
      | h1 :: h2 :: rest' =>
        if !isHexDigit h1 || !isHexDigit h2 then
          throwInvalidUri component "contains a malformed percent-encoded octet"
        else do
          let result ← normalizeComponent isAllowed component toLowerCase rest'
          return normalizeOctet toLowerCase h1 h2 ++ result
      | _ => throwInvalidUri component "contains a malformed percent-encoded octet"

def isValidScheme : Octets → Bool
  | [] => false
  | ch :: rest =>
    isAlpha ch &&
      rest.all fun ch =>
        isAlpha ch || isDigit ch || '+'.toUInt8 == ch || '-'.toUInt8 == ch || '.'.toUInt8 == ch

/-! ## The IP literal grammar (section 3.2.2) -/

/-- The value a run of digits spells. -/
def digitsValue (token : Octets) : Nat :=
  token.foldl (fun value ch => value * 10 + (ch.toNat - '0'.toNat)) 0

def isDecOctet (token : Octets) : Bool :=
  if token.isEmpty || token.length > 3 then false
  else if token.length > 1 && token.head? == some '0'.toUInt8 then false
  else token.all isDigit && decide (digitsValue token ≤ 255)

/-- The loop cuts the token at every '.', checks each piece and counts
them. -/
def isIpv4Address (token : Octets) : Bool :=
  let pieces := token.splitOn '.'.toUInt8
  pieces.all isDecOctet && pieces.length == 4

def isIpv6Group (token : Octets) : Bool :=
  if token.isEmpty || token.length > 4 then false else token.all isHexDigit

/-- The loop of `countIpv6Groups` over the pieces between the ':'; `none`
is `npos`. Only the last piece can be a dotted-quad. -/
def countPieces (allowIpv4Tail : Bool) : List Octets → Option Nat
  | [] => some 0
  | [token] =>
    if allowIpv4Tail && token.contains '.'.toUInt8 then
      if isIpv4Address token then some 2 else none
    else if isIpv6Group token then some 1 else none
  | token :: rest =>
    if isIpv6Group token then (countPieces allowIpv4Tail rest).map (· + 1) else none

def countIpv6Groups (piece : Octets) (allowIpv4Tail : Bool) : Option Nat :=
  if piece.isEmpty then some 0 else countPieces allowIpv4Tail (piece.splitOn ':'.toUInt8)

def doubleColonText : Octets := octets "::"

def chkIpv6Address (address : Octets) : Except UriException Unit :=
  match findText doubleColonText address with
  | none =>
    if countIpv6Groups address true != some 8 then
      throwInvalidUri "host" "is not a valid IPv6 address"
    else .ok ()
  | some doubleColon => do
      if (findText doubleColonText (address.drop (doubleColon + 1))).isSome then
        throwInvalidUri "host" "is not a valid IPv6 address - it has more than one '::'"
      let headText ← orOutOfRange (substr address 0 doubleColon)
      let tailText ← orOutOfRange (substrFrom address (doubleColon + 2))
      -- the head is never the end of the address, so only the tail may be a dotted-quad
      match countIpv6Groups headText false, countIpv6Groups tailText true with
      | some head, some tail =>
        if head + tail > 7 then throwInvalidUri "host" "is not a valid IPv6 address"
        else .ok ()
      | _, _ => throwInvalidUri "host" "is not a valid IPv6 address"

/-- The part of an IPvFuture after its first '.'. -/
def chkIpvFutureTail (tail : Octets) : Except UriException Unit :=
  if tail.isEmpty then throwInvalidUri "host" "is not a valid IPvFuture literal"
  else if tail.all fun ch => isUnreserved ch || isSubDelim ch || ':'.toUInt8 == ch then .ok ()
  else throwInvalidUri "host" "is not a valid IPvFuture literal"

/-- The literal is known to start with a 'v', which the scan skips. -/
def chkIpvFuture (literal : Octets) : Except UriException Unit :=
  let version := (literal.drop 1).takeWhile isHexDigit
  let rest := (literal.drop 1).dropWhile isHexDigit
  match rest with
  | ch :: tail =>
    if version.isEmpty || '.'.toUInt8 != ch then
      throwInvalidUri "host" "is not a valid IPvFuture literal"
    else chkIpvFutureTail tail
  | [] => throwInvalidUri "host" "is not a valid IPvFuture literal"

def chkIpLiteral (literal : Octets) : Except UriException Unit :=
  match literal with
  | [] => throwInvalidUri "host" "is an empty IP literal"
  | ch :: _ =>
    if 'v'.toUInt8 == ch || 'V'.toUInt8 == ch then chkIpvFuture literal
    else chkIpv6Address literal

/-! ## Parsing -/

/-- The digit loop of `parsePort`. The value stays below 2^32: it is at
most 65535 before each digit. -/
def parsePortLoop (value : Nat) : Octets → Except UriException Nat
  | [] => .ok value
  | ch :: rest =>
    if !isDigit ch then throwInvalidUri "port" "contains a character which is not a digit"
    else
      let value := value * 10 + (ch.toNat - '0'.toNat)
      if value > 65535 then throwInvalidUri "port" "is greater than 65535"
      else parsePortLoop value rest

/-- The port, when there is one to store. -/
def parsePort (port : Octets) : Except UriException (Option UInt16) :=
  if port.isEmpty then .ok none
  else do
    let value ← parsePortLoop 0 port
    return some (UInt16.ofNat value)

/-- The host and the text which follows the port separator, if any. -/
def parseHost (hostAndPort : Octets) :
    Except UriException (Octets × Bool × Option Octets) :=
  if hostAndPort.head? == some '['.toUInt8 then
    match find hostAndPort ']'.toUInt8 0 with
    | none => throwInvalidUri "host" "starts an IP literal which is never closed"
    | some closePos => do
        let literal ← orOutOfRange (substr hostAndPort 1 (closePos - 1))
        chkIpLiteral literal
        let remainder ← orOutOfRange (substrFrom hostAndPort (closePos + 1))
        match remainder with
        | [] => return (toLowerCopy literal, true, none)
        | ch :: port =>
          if ':'.toUInt8 != ch then
            throwInvalidUri "authority" "has text between the IP literal and the port"
          else return (toLowerCopy literal, true, some port)
  else
    match find hostAndPort ':'.toUInt8 0 with
    | none => do
        let host ← normalizeComponent isRegNameChar "host" true hostAndPort
        return (host, false, none)
    | some colonPos => do
        let port ← orOutOfRange (substrFrom hostAndPort (colonPos + 1))
        let name ← orOutOfRange (eraseFrom hostAndPort colonPos)
        let host ← normalizeComponent isRegNameChar "host" true name
        return (host, false, some port)

/-- The userinfo, if there is one, and the text after it. -/
def parseUserInfo (authority : Octets) : Except UriException (Option Octets × Octets) :=
  match find authority '@'.toUInt8 0 with
  | none => .ok (none, authority)
  | some atPos => do
      let text ← orOutOfRange (substr authority 0 atPos)
      let userInfo ← normalizeComponent isUserInfoChar "userinfo" false text
      return (some userInfo, eraseFront authority (atPos + 1))

def parsePortText : Option Octets → Except UriException (Option UInt16)
  | none => .ok none
  | some text => parsePort text

/-- The members `parseAuthority` sets, on an object which has none of
them yet. -/
def parseAuthority (authority : Octets) : Except UriException Uri := do
  let user ← parseUserInfo authority
  let host ← parseHost user.2
  let port ← parsePortText host.2.2
  return {
    userInfo := user.1.getD []
    host := host.1
    port := port.getD 0
    hasAuthority := true
    hasUserInfo := user.1.isSome
    hasPort := port.isSome
    isIpLiteral := host.2.1 }

/-- The block which cuts off the fragment or the query: everything after
the first `separator`. -/
def parseTail (separator : UInt8) (component : String) (text : Octets) :
    Except UriException (Option Octets × Octets) :=
  match find text separator 0 with
  | none => .ok (none, text)
  | some pos => do
      let value ← orOutOfRange (substrFrom text (pos + 1))
      let value ← normalizeComponent isQueryOrFragmentChar component false value
      let rest ← orOutOfRange (eraseFrom text pos)
      return (some value, rest)

def parseScheme (rest : Octets) : Except UriException (Octets × Octets) :=
  match find rest ':'.toUInt8 0 with
  | none => .ok ([], rest)
  | some colonPos =>
    let introducesScheme :=
      match find rest '/'.toUInt8 0 with
      | none => true
      | some slashPos => decide (colonPos < slashPos)
    if introducesScheme then do
      let candidate ← orOutOfRange (substr rest 0 colonPos)
      if !isValidScheme candidate then
        throwInvalidUri "scheme"
          ("is not well formed, and a relative reference may not carry a ':' " ++
           "in its first path segment")
      return (toLowerCopy candidate, eraseFront rest (colonPos + 1))
    else .ok ([], rest)

/-- The authority members and the path which follows them. -/
def parseHierPart (rest : Octets) : Except UriException (Uri × Octets) :=
  match rest with
  | c1 :: c2 :: afterSlashes =>
    if c1 == '/'.toUInt8 && c2 == '/'.toUInt8 then
      match find afterSlashes '/'.toUInt8 0 with
      | none => do
          let authority ← parseAuthority afterSlashes
          return (authority, [])
      | some authorityEnd => do
          let text ← orOutOfRange (substr afterSlashes 0 authorityEnd)
          let authority ← parseAuthority text
          return (authority, eraseFront afterSlashes authorityEnd)
    else .ok ({}, rest)
  | _ => .ok ({}, rest)

/-! ## Dot segments (section 5.2.4) -/

def removeLastSegment (output : Octets) : Octets :=
  match rfind output '/'.toUInt8 with
  | none => []
  | some pos => output.take pos

/-- One pass of the loop of `removeDotSegments`. -/
def removeDotSegmentsStep (input output : Octets) : Octets × Octets :=
  if octets "../" <+: input then (input.drop 3, output)
  else if octets "./" <+: input then (input.drop 2, output)
  else if octets "/./" <+: input then (input.drop 2, output)
  else if input = octets "/." then (octets "/", output)
  else if octets "/../" <+: input then (input.drop 3, removeLastSegment output)
  else if input = octets "/.." then (octets "/", removeLastSegment output)
  else if input = octets "." ∨ input = octets ".." then ([], output)
  else
    match find input '/'.toUInt8 (if input.head? == some '/'.toUInt8 then 1 else 0) with
    | none => ([], output ++ input)
    | some next => (input.drop next, output ++ input.take next)

/-- The loop, with the number of passes it is given. -/
def removeDotSegmentsLoop : Nat → Octets → Octets → Octets
  | 0, _, output => output
  | fuel + 1, input, output =>
    if input.isEmpty then output
    else
      let (input, output) := removeDotSegmentsStep input output
      removeDotSegmentsLoop fuel input output

/-- Every pass shortens the input, so its length is enough passes
(`removeDotSegmentsLoop_fuel`). -/
def removeDotSegments (path : Octets) : Octets :=
  removeDotSegmentsLoop path.length path []

def parseImpl (text : Octets) : Except UriException Uri := do
  chkStrictCharacters text
  let (fragment, rest) ← parseTail '#'.toUInt8 "fragment" text
  let (query, rest) ← parseTail '?'.toUInt8 "query" rest
  let (scheme, rest) ← parseScheme rest
  let (authority, rest) ← parseHierPart rest
  let path ← normalizeComponent isPathChar "path" false rest
  let path :=
    if !scheme.isEmpty || authority.hasAuthority then removeDotSegments path else path
  return { authority with
    scheme := scheme
    path := path
    query := query.getD []
    fragment := fragment.getD []
    hasQuery := query.isSome
    hasFragment := fragment.isSome }

def parse (text : Octets) : Except UriException Uri := parseImpl text

/-! ## Recomposition (section 5.3) -/

/-- `std::to_string` of an unsigned value. -/
def toDecimal (value : Nat) : Octets := (Nat.toDigits 10 value).map Char.toUInt8

def hostForAuthority (u : Uri) : Octets :=
  if u.isIpLiteral then octets "[" ++ u.host ++ octets "]" else u.host

def authority (u : Uri) : Octets :=
  u.hostForAuthority ++ if u.hasPort then ':'.toUInt8 :: toDecimal u.port.toNat else []

def toString (u : Uri) : Octets :=
  (if u.scheme.isEmpty then [] else u.scheme ++ octets ":") ++
  (if u.hasAuthority then
    octets "//" ++ (if u.hasUserInfo then u.userInfo ++ octets "@" else []) ++ u.authority
  else []) ++
  u.path ++
  (if u.hasQuery then '?'.toUInt8 :: u.query else []) ++
  (if u.hasFragment then '#'.toUInt8 :: u.fragment else [])

end Uri

end Baselib.Core
