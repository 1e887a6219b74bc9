/-
Baselib.Core.UriGrammar — the collected ABNF of RFC 3986 appendix A for
`URI-reference`, production by production.

ABNF string literals are case-insensitive (RFC 2234 section 2.3), so the
"v" of IPvFuture and the letters of HEXDIG stand for both cases. The one
departure from appendix A is `port`, which is limited to values which
fit a 16 bit port number.
-/
import Baselib.Lib.Grammar
import Mathlib.Data.Nat.Digits.Defs

namespace Baselib.Core.UriGrammar

open Lib Computability

/-! ## Terminals -/

/-- `%xlo-hi`. -/
def range (lo hi : Char) : Language UInt8 := single fun c => lo.toUInt8 ≤ c && c ≤ hi.toUInt8

/-- A literal of one character. -/
def lit (ch : Char) : Language UInt8 := single (ch.toUInt8 == ·)

def alpha : Language UInt8 := range 'a' 'z' + range 'A' 'Z'

def digit : Language UInt8 := range '0' '9'

def hexdig : Language UInt8 := digit + range 'a' 'f' + range 'A' 'F'

/-! ## Characters (section 2) -/

/-- `pct-encoded = "%" HEXDIG HEXDIG` -/
def pctEncoded : Language UInt8 := lit '%' * hexdig * hexdig

/-- `unreserved = ALPHA / DIGIT / "-" / "." / "_" / "~"` -/
def unreserved : Language UInt8 := alpha + digit + lit '-' + lit '.' + lit '_' + lit '~'

/-- `sub-delims = "!" / "$" / "&" / "'" / "(" / ")" / "*" / "+" / "," / ";" / "="` -/
def subDelims : Language UInt8 :=
  lit '!' + lit '$' + lit '&' + lit '\'' + lit '(' + lit ')' + lit '*' + lit '+' + lit ',' +
    lit ';' + lit '='

/-- `pchar = unreserved / pct-encoded / sub-delims / ":" / "@"` -/
def pchar : Language UInt8 := unreserved + pctEncoded + subDelims + lit ':' + lit '@'

/-! ## Scheme and authority (sections 3.1 and 3.2) -/

/-- `scheme = ALPHA *( ALPHA / DIGIT / "+" / "-" / "." )` -/
def scheme : Language UInt8 := alpha * (alpha + digit + lit '+' + lit '-' + lit '.')∗

/-- `userinfo = *( unreserved / pct-encoded / sub-delims / ":" )` -/
def userinfo : Language UInt8 := (unreserved + pctEncoded + subDelims + lit ':')∗

/-- `dec-octet = DIGIT / %x31-39 DIGIT / "1" 2DIGIT / "2" %x30-34 DIGIT / "25" %x30-35` -/
def decOctet : Language UInt8 :=
  digit + range '1' '9' * digit + lit '1' * digit ^ 2 + lit '2' * range '0' '4' * digit +
    lit '2' * lit '5' * range '0' '5'

/-- `IPv4address = dec-octet "." dec-octet "." dec-octet "." dec-octet` -/
def ipv4address : Language UInt8 :=
  decOctet * lit '.' * decOctet * lit '.' * decOctet * lit '.' * decOctet

/-- `h16 = 1*4HEXDIG` -/
def h16 : Language UInt8 := hexdig * upTo 3 hexdig

/-- `h16 ":"` -/
def h16Colon : Language UInt8 := h16 * lit ':'

/-- `ls32 = ( h16 ":" h16 ) / IPv4address` -/
def ls32 : Language UInt8 := h16 * lit ':' * h16 + ipv4address

/-- `"::"` -/
def colons : Language UInt8 := lit ':' * lit ':'

/-- `IPv6address`, its nine alternatives in the order of the RFC. -/
def ipv6address : Language UInt8 :=
  h16Colon ^ 6 * ls32 +
  colons * h16Colon ^ 5 * ls32 +
  opt h16 * colons * h16Colon ^ 4 * ls32 +
  opt (upTo 1 h16Colon * h16) * colons * h16Colon ^ 3 * ls32 +
  opt (upTo 2 h16Colon * h16) * colons * h16Colon ^ 2 * ls32 +
  opt (upTo 3 h16Colon * h16) * colons * h16 * lit ':' * ls32 +
  opt (upTo 4 h16Colon * h16) * colons * ls32 +
  opt (upTo 5 h16Colon * h16) * colons * h16 +
  opt (upTo 6 h16Colon * h16) * colons

/-- `IPvFuture = "v" 1*HEXDIG "." 1*( unreserved / sub-delims / ":" )` -/
def ipvFuture : Language UInt8 :=
  (lit 'v' + lit 'V') * (hexdig * hexdig∗) * lit '.' *
    ((unreserved + subDelims + lit ':') * (unreserved + subDelims + lit ':')∗)

/-- `IP-literal = "[" ( IPv6address / IPvFuture ) "]"` -/
def ipLiteral : Language UInt8 := lit '[' * (ipv6address + ipvFuture) * lit ']'

/-- `reg-name = *( unreserved / pct-encoded / sub-delims )` -/
def regName : Language UInt8 := (unreserved + pctEncoded + subDelims)∗

/-- `host = IP-literal / IPv4address / reg-name` -/
def host : Language UInt8 := ipLiteral + ipv4address + regName

/-- The number a run of digits spells. -/
def decimalValue (w : Octets) : Nat :=
  Nat.ofDigits 10 (w.reverse.map fun c => c.toNat - '0'.toNat)

/-- `port = *DIGIT`, of a value which fits 16 bits. -/
def port : Language UInt8 := digit∗ ⊓ {w | decimalValue w ≤ 65535}

/-- `authority = [ userinfo "@" ] host [ ":" port ]` -/
def authority : Language UInt8 := opt (userinfo * lit '@') * host * opt (lit ':' * port)

/-! ## Path, query and fragment (sections 3.3 to 3.5) -/

/-- `segment = *pchar` -/
def segment : Language UInt8 := pchar∗

/-- `segment-nz = 1*pchar` -/
def segmentNz : Language UInt8 := pchar * pchar∗

/-- `segment-nz-nc = 1*( unreserved / pct-encoded / sub-delims / "@" )` -/
def segmentNzNc : Language UInt8 :=
  (unreserved + pctEncoded + subDelims + lit '@') *
    (unreserved + pctEncoded + subDelims + lit '@')∗

/-- `path-abempty = *( "/" segment )` -/
def pathAbempty : Language UInt8 := (lit '/' * segment)∗

/-- `path-absolute = "/" [ segment-nz *( "/" segment ) ]` -/
def pathAbsolute : Language UInt8 := lit '/' * opt (segmentNz * (lit '/' * segment)∗)

/-- `path-noscheme = segment-nz-nc *( "/" segment )` -/
def pathNoscheme : Language UInt8 := segmentNzNc * (lit '/' * segment)∗

/-- `path-rootless = segment-nz *( "/" segment )` -/
def pathRootless : Language UInt8 := segmentNz * (lit '/' * segment)∗

/-- `path-empty = 0<pchar>` -/
def pathEmpty : Language UInt8 := 1

/-- `query = *( pchar / "/" / "?" )` -/
def query : Language UInt8 := (pchar + lit '/' + lit '?')∗

/-- `fragment = *( pchar / "/" / "?" )` -/
def fragment : Language UInt8 := (pchar + lit '/' + lit '?')∗

/-! ## References (sections 3 and 4) -/

/-- `hier-part = "//" authority path-abempty / path-absolute / path-rootless / path-empty` -/
def hierPart : Language UInt8 :=
  lit '/' * lit '/' * authority * pathAbempty + pathAbsolute + pathRootless + pathEmpty

/-- `relative-part = "//" authority path-abempty / path-absolute / path-noscheme / path-empty` -/
def relativePart : Language UInt8 :=
  lit '/' * lit '/' * authority * pathAbempty + pathAbsolute + pathNoscheme + pathEmpty

/-- `URI = scheme ":" hier-part [ "?" query ] [ "#" fragment ]` -/
def uri : Language UInt8 :=
  scheme * lit ':' * hierPart * opt (lit '?' * query) * opt (lit '#' * fragment)

/-- `relative-ref = relative-part [ "?" query ] [ "#" fragment ]` -/
def relativeRef : Language UInt8 :=
  relativePart * opt (lit '?' * query) * opt (lit '#' * fragment)

/-- `URI-reference = URI / relative-ref` -/
def uriReference : Language UInt8 := uri + relativeRef

end Baselib.Core.UriGrammar
