/-
Baselib.Http.SimpleHttpResponse — how `SimpleHttpTask` of
`http/SimpleHttpTask.h` reads a response: `doRequest`, `doReadStatus`,
`doReadHeaders` and `doReadContent`.

The server sends octets and ends the stream; they arrive in pieces. The
stream buffer is filled up to a CRLF for the status line and up to an empty
line for the headers, and what it holds beyond them is the beginning of the
next part. A handler answers the members as it leaves them, or the outcome
of the task.
-/
import Baselib.Core.InputStream
import Baselib.HttpServer.ParserHelpers
import Baselib.Lib.Reads

namespace Baselib.HttpServer.HttpHeader

open Lib

def setCookie : Octets := octets "Set-Cookie"
def cookie : Octets := octets "Cookie"
def cookieSeparator : UInt8 := ';'.toUInt8

def iso8859_1 : Octets := octets "ISO-8859-1"
def latin1 : Octets := octets "LATIN-1"
def windows1252 : Octets := octets "WINDOWS-1252"
def utf8 : Octets := octets "UTF-8"

end Baselib.HttpServer.HttpHeader

namespace Baselib.Http.SimpleHttpTask

open Lib
open Baselib.Core (InputStream)
open Core.Uri (isAlpha isDigit toLowerCopy)
open Core.Str (isSpace trim iequals lexicalCast)
open HttpServer (HttpHeader.cookie HeadersMap)
open HttpServer.HttpHeader (nameSeparator crlf sentinel setCookie cookieSeparator
  contentLength contentType iso8859_1 latin1 windows1252 utf8)

/-! ## The members -/

def maxResponseHeadersSize : Nat := 2 ^ 16
def maxResponseSizeDefault : Nat := 2 ^ 26
def contentBufferSize : Nat := 2048

def httpStatusUndefined : Nat := 0
def httpSuccessOk : Nat := 200

/-- `static_cast< std::size_t >( -1 )`: no length was announced. -/
def noLength : Nat := 2 ^ 64 - 1

/-- What the caller sets. -/
structure ResponseOptions where
  maxResponseSize : Nat := maxResponseSizeDefault
  isExpectUtf8Content : Bool := false
  deriving DecidableEq

/-- The members the response is read into. -/
structure ResponseState where
  response : Octets := []
  responseHeaders : HeadersMap := {}
  responseLength : Nat := noLength
  contentReceived : Nat := 0
  httpStatus : Nat := httpStatusUndefined
  contentOutStream : Octets := []
  contentOut : Octets := []
  deriving DecidableEq

/-- The exceptions a task fails with. -/
inductive Failure where
  | systemError (e : ReadError)
  | invalidResponse (info : Octets)
  | badLexicalCast
  | responseTooLarge (maxResponseSize : Nat)
  | truncated (received announced : Nat)
  | conversion
  | errorStatusCode (httpStatus : Nat)
  deriving DecidableEq

/-- What the caller sees of a task which is done. -/
structure Outcome where
  failure : Option Failure
  httpStatus : Nat
  responseHeaders : HeadersMap
  contentOut : Octets
  deriving DecidableEq

namespace ResponseState

def outcome (s : ResponseState) (failure : Option Failure) : Outcome where
  failure := failure
  httpStatus := s.httpStatus
  responseHeaders := s.responseHeaders
  contentOut := s.contentOut

/-- The handler throws. -/
def fail (s : ResponseState) (failure : Failure) : Except Outcome ResponseState :=
  .error (s.outcome (some failure))

end ResponseState

/-! ## `doReadStatus` -/

/-- The extractions of `doReadStatus`: the status code, or the text of the
check which does not hold. -/
def readStatusLine (rstream : InputStream) : Except Octets Nat × InputStream :=
  let (httpVersion, rstream) := rstream.extractString
  if rstream.failbit || httpVersion.take 5 != octets "HTTP/" then (.error httpVersion, rstream)
  else
    match rstream.extractUnsigned with
    | (none, rstream) => (.error (octets "HTTP status code is zero or invalid"), rstream)
    | (some statusCode, rstream) =>
      if 0 = statusCode then
        (.error (octets "HTTP status code is zero or invalid"), rstream)
      else
        let (statusMsg, rstream) := rstream.getline
        if rstream.failbit || statusMsg.isEmpty then (.error statusMsg, rstream)
        else (.ok statusCode, rstream)

def doReadStatus (s : ResponseState) : Except Outcome ResponseState :=
  match readStatusLine { rest := s.response } with
  | (.error info, _) => s.fail (.invalidResponse info)
  | (.ok statusCode, rstream) => .ok { s with httpStatus := statusCode, response := rstream.rest }

/-! ## `doReadHeaders` -/

/-- `emplace` keeps the value of a name which is in the map already. -/
def emplaceHeader (headers : HeadersMap) (name value : Octets) : HeadersMap :=
  (headers.emplace name value).getD headers

/-- The body of the loop: the headers and the cookies so far, and one line. -/
def readHeader (headers : HeadersMap × Octets) (header : Octets) : HeadersMap × Octets :=
  match find header nameSeparator 0 with
  | none => headers
  | some 0 => headers
  | some pos =>
    let name := trim (header.take pos)
    let value := trim (header.drop (pos + 1))
    if iequals name setCookie then
      (headers.1, headers.2 ++ value ++ [cookieSeparator])
    else (emplaceHeader headers.1 (toLowerCopy name) value, headers.2)

/-- The loop over the lines up to an empty one. -/
def readHeaders (rstream : InputStream) (headers : HeadersMap × Octets) :
    (HeadersMap × Octets) × InputStream :=
  if _h : rstream.getline.2.failbit = false ∧ rstream.getline.1 ≠ ['\r'.toUInt8] then
    readHeaders rstream.getline.2 (readHeader headers rstream.getline.1)
  else (headers, rstream.getline.2)
termination_by rstream.rest.length
decreasing_by exact InputStream.getline_lt _h.1

/-- The announced length, or `noLength`. -/
def readResponseLength (headers : HeadersMap) : Except Failure Nat :=
  match headers.entries.lookup (toLowerCopy contentLength) with
  | none => .ok noLength
  | some contentLength =>
    if contentLength = [] ∨ contentLength.head? = some '-'.toUInt8 ∨
        contentLength.head? = some '+'.toUInt8 then .error (.invalidResponse contentLength)
    else
      match lexicalCast contentLength with
      | none => .error .badLexicalCast
      | some n => .ok n

section

variable (options : ResponseOptions)

def chkResponseSize (s : ResponseState) : Except Outcome ResponseState :=
  if s.contentReceived ≤ options.maxResponseSize then .ok s
  else s.fail (.responseTooLarge options.maxResponseSize)

def doReadHeaders (s : ResponseState) : Except Outcome ResponseState :=
  let ((headers, cookies), rstream) := readHeaders { rest := s.response } (s.responseHeaders, [])
  let s := { s with responseHeaders := headers, response := rstream.rest }
  match readResponseLength headers with
  | .error failure => s.fail failure
  | .ok responseLength =>
    let s := { s with responseLength := responseLength }
    let s :=
      if cookies = [] then s
      else
        { s with
          responseHeaders := emplaceHeader headers (toLowerCopy HttpHeader.cookie) cookies }
    let s :=
      if s.response.length > 0 then
        { s with
          contentReceived := s.contentReceived + s.response.length
          contentOutStream := s.contentOutStream ++ s.response
          response := [] }
      else s
    chkResponseSize options s

/-! ## `decodeContent` -/

def isWord (ch : UInt8) : Bool := isAlpha ch || isDigit ch || ch == '_'.toUInt8

def toUpperCopy (text : Octets) : Octets :=
  text.map fun ch => if 'a'.toUInt8 ≤ ch && ch ≤ 'z'.toUInt8 then ch - 32 else ch

/-- `g_charsetRegex` at one place: `charset\s*=\s*"?([^;"\s]+)"?`, whatever
the case. -/
def matchCharset (text : Octets) : Option Octets :=
  if iequals (text.take 7) (octets "charset") then
    match (text.drop 7).dropWhile isSpace with
    | [] => none
    | ch :: rest =>
      if ch = '='.toUInt8 then
        let rest := rest.dropWhile isSpace
        let rest := if rest.head? = some '"'.toUInt8 then rest.drop 1 else rest
        let charset := rest.takeWhile fun ch =>
          !(ch == ';'.toUInt8 || ch == '"'.toUInt8 || isSpace ch)
        if charset = [] then none else some charset
      else none
  else none

/-- `str::regex_search` for `g_charsetRegex`: the first match which begins at
the beginning of a word. -/
def searchCharset : Bool → Octets → Option Octets
  | _, [] => none
  | afterWord, ch :: rest =>
    match if afterWord then none else matchCharset (ch :: rest) with
    | some charset => some charset
    | none => searchCharset (isWord ch) rest

def tryGetContentCharset (headers : HeadersMap) : Octets :=
  match headers.entries.lookup (toLowerCopy contentType) with
  | none => []
  | some contentType => toUpperCopy ((searchCharset false contentType).getD [])

-- `str::from_utf`, or `str::utf8ToIso88591Simple` in a build without
-- Boost.Locale; `none` is the exception.
variable (fromUtf8 : Octets → Option Octets)

def decodeContent (headers : HeadersMap) (content : Octets) : Option Octets :=
  let charset := tryGetContentCharset headers
  if charset = [] then some content
  else if charset = iso8859_1 ∨ charset = latin1 ∨
      charset = windows1252 then some content
  else if charset = utf8 then
    if options.isExpectUtf8Content then some content else fromUtf8 content
  else some content

/-! ## `doReadContent` -/

/-- `doReadContent` with the octets of a read. -/
def doReadContent (s : ResponseState) (bytes : Octets) : Except Outcome ResponseState :=
  match chkResponseSize options { s with contentReceived := s.contentReceived + bytes.length } with
  | .error outcome => .error outcome
  | .ok s => .ok { s with contentOutStream := s.contentOutStream ++ bytes }

/-- `doReadContent` at the end of the stream. -/
def doReadContentEof (s : ResponseState) : Outcome :=
  if noLength ≠ s.responseLength ∧ s.responseLength ≠ s.contentReceived then
    s.outcome (some (.truncated s.contentReceived s.responseLength))
  else
    match decodeContent options fromUtf8 s.responseHeaders s.contentOutStream with
    | none => s.outcome (some .conversion)
    | some content =>
      let s := { s with contentOut := content, contentOutStream := [] }
      if httpSuccessOk ≠ s.httpStatus then s.outcome (some (.errorStatusCode s.httpStatus))
      else s.outcome none

/-- The reads up to the end of the stream. -/
def readContent (pieces : List Octets) (s : ResponseState) : Outcome :=
  match _hread : readSome contentBufferSize pieces with
  | none => doReadContentEof options fromUtf8 s
  | some (bytes, pieces') =>
    match doReadContent options s bytes with
    | .error outcome => outcome
    | .ok s => readContent pieces' s
termination_by pieces.length + pieces.flatten.length
decreasing_by exact readSome_lt (by decide) _hread

/-! ## The response -/

/-- From the status line on: the buffer is filled up to the empty line. -/
def readAfterStatus (pieces : List Octets) (s : ResponseState) : Outcome :=
  match readUntil sentinel maxResponseHeadersSize s.response pieces with
  | .error e => s.outcome (some (.systemError e))
  | .ok (response, pieces) =>
    match doReadHeaders options { s with response := response } with
    | .error outcome => outcome
    | .ok s => readContent options fromUtf8 pieces s

/-- `doRequest`, once the request was written. -/
def readResponse (pieces : List Octets) : Outcome :=
  let s : ResponseState := {}
  match readUntil crlf maxResponseHeadersSize s.response pieces with
  | .error e => s.outcome (some (.systemError e))
  | .ok (response, pieces) =>
    match doReadStatus { s with response := response } with
    | .error outcome => outcome
    | .ok s => readAfterStatus options fromUtf8 pieces s

end

end Baselib.Http.SimpleHttpTask
