/-
Baselib.HttpServer.ParserHelpers — `httpserver/detail/ParserHelpers.h`
and the parts of `http/Globals.h` the parser and the response share: the
header names, the headers map, the character checks, the request line
and one header line.

A `char` is its octet; `isChar` of the source asks for a value from 0 to
127, which an octet above 127 never has, whatever the sign of `char`.
Both line parsers report through the context they are handed, also when
they fail, so they answer the context next to the result.
-/
import Baselib.Core.StringUtils

namespace Baselib.HttpServer

open Lib
open Baselib.Core (Str.trim Str.isSpace Str.iequals Str.quoteString)
open Core.Uri (toLowerCopy)

/-! ## `http::HttpHeader` -/

namespace HttpHeader

def contentType : Octets := octets "Content-Type"
def contentLength : Octets := octets "Content-Length"
def connection : Octets := octets "Connection"
def close : Octets := octets "close"
def transferEncoding : Octets := octets "Transfer-Encoding"
def contentTypeDefault : Octets := octets "application/json; charset=UTF-8"

def nameSeparator : UInt8 := ':'.toUInt8
def space : UInt8 := ' '.toUInt8

def crlf : Octets := octets "\r\n"
def sentinel : Octets := octets "\r\n\r\n"

def httpVersion1_0 : Octets := octets "HTTP/1.0"
def httpVersion1_1 : Octets := octets "HTTP/1.1"

theorem crlf_eq : crlf = ['\r'.toUInt8, '\n'.toUInt8] := rfl

theorem sentinel_eq :
    sentinel = '\r'.toUInt8 :: ['\n'.toUInt8, '\r'.toUInt8, '\n'.toUInt8] := rfl

theorem crlf_ne_nil : crlf ≠ [] := List.cons_ne_nil _ _

theorem sentinel_ne_nil : sentinel ≠ [] := List.cons_ne_nil _ _

theorem length_sentinel : sentinel.length = 4 := rfl

end HttpHeader

/-- `http::HeadersMap`: one value for each name. The order of the entries
is the order in which the map is iterated, which nothing depends on. -/
structure HeadersMap where
  entries : List (Octets × Octets) := []
  nodup : (entries.map Prod.fst).Nodup := by exact List.nodup_nil
  deriving DecidableEq

namespace HeadersMap

/-- `emplace`; `none` is a name which is in the map already. -/
def emplace (m : HeadersMap) (name value : Octets) : Option HeadersMap :=
  if h : name ∈ m.entries.map Prod.fst then none
  else some
    { entries := m.entries ++ [(name, value)]
      nodup := by
        rw [List.map_append, List.nodup_append]
        refine ⟨m.nodup, List.nodup_singleton name, fun a ha b hb e => h ?_⟩
        have hname : a = name := e.trans (List.mem_singleton.mp hb)
        exact hname ▸ ha }

theorem emplace_eq_some {m m' : HeadersMap} {name value : Octets} :
    m.emplace name value = some m' ↔
      name ∉ m.entries.map Prod.fst ∧ m'.entries = m.entries ++ [(name, value)] := by
  unfold emplace
  split_ifs with h
  · simp [h]
  · rw [Option.some.injEq]
    refine ⟨fun e => ⟨h, e ▸ rfl⟩, fun e => ?_⟩
    cases m'
    simp_all

/-- `std::find_if` for a name, whatever its case. -/
def findName (m : HeadersMap) (name : Octets) : Option (Octets × Octets) :=
  m.entries.find? fun header => Str.iequals header.1 name

end HeadersMap

/-! ## Results -/

inductive HttpParserResult where
  | parsingError
  | parsed
  | moreDataRequired
  deriving DecidableEq, Repr

/-- A result code, and the text of the exception of a failure. -/
abbrev ServerResult := HttpParserResult × Option Octets

/-- `class ContextT`. -/
structure Context where
  method : Octets := []
  uri : Octets := []
  headers : HeadersMap := {}
  body : Octets := []
  buffer : Octets := []
  headersParsed : Bool := false
  parsed : Bool := false
  bodyBeginPos : Nat := 0
  expectedBodyLength : Nat := 0
  maxRequestLength : Nat := 0
  deriving DecidableEq

namespace ParserHelpers

def maxUriSize : Nat := 8192

def serverError (message : Octets) : ServerResult := (.parsingError, some message)

def serverResult (resultCode : HttpParserResult) : ServerResult :=
  if resultCode = .parsingError then serverError (octets "Unknown server error")
  else (resultCode, none)

/-! ## Character checks -/

def isChar (ch : UInt8) : Bool := ch ≤ 127

def isCtl (ch : UInt8) : Bool := ch ≤ 31 || ch == 127

def isTSpecial (ch : UInt8) : Bool := (octets "()<>@,;:\\\"/[]?=\x7b\x7d \t").contains ch

/-- No control character but HTAB. -/
def isValidValue (value : Octets) : Bool :=
  value.all fun ch => '\t'.toUInt8 == ch || !(!isChar ch || isCtl ch)

def isValidName (name : Octets) : Bool :=
  !name.isEmpty && name.all fun ch => !(!isChar ch || isCtl ch || isTSpecial ch)

/-! ## Lines -/

/-- The request line. The elements it has read so far stay in the context
of a failure. -/
def parseMethodURIVersion (input : Octets) (context : Context) : ServerResult × Context :=
  match input.splitOn HttpHeader.space with
  | [method, uri, version] =>
    if method.isEmpty || uri.isEmpty || version.isEmpty then
      (serverError (octets "Invalid start line: '" ++ input ++ octets "'"), context)
    else if !isValidName method then
      (serverError (octets "Invalid characters in the method name: '" ++ method ++ octets "'"),
        context)
    else
      let context := { context with method := method }
      if uri.length > maxUriSize then
        (serverError (octets "The request URI is longer than the maximum of " ++
          Core.Uri.toDecimal maxUriSize ++ octets " characters"), context)
      else if !isValidValue uri then
        (serverError (octets "Invalid characters in the request URI"), context)
      else
        let context := { context with uri := uri }
        if version ≠ HttpHeader.httpVersion1_1 ∧ version ≠ HttpHeader.httpVersion1_0 then
          (serverError (octets "Unsupported protocol version " ++ Str.quoteString version ++
            octets ". Supported are " ++ Str.quoteString HttpHeader.httpVersion1_0 ++
            octets " and " ++ Str.quoteString HttpHeader.httpVersion1_1), context)
        else (serverResult .parsed, context)
  | _ => (serverError (octets "Invalid start line: '" ++ input ++ octets "'"), context)

def parseHeader (input : Octets) (context : Context) : ServerResult × Context :=
  match find input HttpHeader.nameSeparator 0 with
  | none => (serverError (octets "Invalid header: '" ++ input ++ octets "'"), context)
  | some pos =>
    let name := input.take pos
    if name.isEmpty then (serverError (octets "Empty header name"), context)
    else if name.head?.any Str.isSpace || name.getLast?.any Str.isSpace then
      (serverError (octets "White space in the header name: '" ++ name ++ octets "'"), context)
    else if !isValidName name then
      (serverError (octets "Invalid characters in the header name: '" ++ name ++ octets "'"),
        context)
    else
      let name := toLowerCopy name
      let value := Str.trim (input.drop (pos + 1))
      if !isValidValue value then
        (serverError (octets "Invalid characters in the value of header '" ++ name ++
          octets "'"), context)
      else
        match context.headers.emplace name value with
        | none =>
          (serverError (octets "Duplicate header name: '" ++ name ++ octets "'"), context)
        | some headers => (serverResult .parsed, { context with headers := headers })

end ParserHelpers

end Baselib.HttpServer
