/-
Baselib.HttpServer.Parser — `httpserver/Parser.h`, the incremental
parser of one HTTP request.

`parse` is handed the next octets of the connection and answers whether
it needs more. It is one function of the octets and the context, cut
where the source has its blocks: the head once the sentinel is in the
buffer (`parseHead`, with the loop over its lines, the two framing
headers and the positions), then the body. A failure leaves the context
as far as the source had got with it. Sizes are natural numbers except
the one sum which a header of the client can make wrap.
-/
import Baselib.HttpServer.ParserHelpers

namespace Baselib.HttpServer

open Lib
open Baselib.Core (Str.splitString Str.lexicalCast)

/-- `class RequestT`. -/
structure Request where
  method : Octets
  uri : Octets
  headers : HeadersMap
  body : Octets
  deriving DecidableEq

/-- What a call of `parse` does: it answers, or it throws. -/
inductive Outcome where
  | answered (result : ServerResult)
  | thrown (message : Octets)
  deriving DecidableEq

namespace Parser

open ParserHelpers

def maxHeadersSize : Nat := 1 <<< 16
def maxContentSize : Nat := 1 <<< 20

/-- `buildRequest`; the failure is the text of the exception. -/
def buildRequest (context : Context) : Except Octets Request :=
  if context.parsed then
    .ok
      { method := context.method
        uri := context.uri
        headers := context.headers
        body := context.body }
  else .error (octets "The HTTP parser is expecting more data")

/-- The lines of the head after the first one, up to the first which
fails. -/
def parseHeaderLines : List Octets → Context → ServerResult × Context
  | [], context => (serverResult .parsed, context)
  | header :: headers, context =>
    match parseHeader header context with
    | ((.parsed, _), context) => parseHeaderLines headers context
    | failed => failed

/-- The lines of the head. -/
def parseLines : List Octets → Context → ServerResult × Context
  | [], context => (serverResult .parsed, context)
  | header :: headers, context =>
    match parseMethodURIVersion header context with
    | ((.parsed, _), context) => parseHeaderLines headers context
    | failed => failed

/-- The framing headers: no `Transfer-Encoding`, and the length of the
body as the `Content-Length` gives it. -/
def parseFraming (context : Context) : ServerResult × Context :=
  if (context.headers.findName HttpHeader.transferEncoding).isSome then
    (serverError (octets "The Transfer-Encoding header is not supported"), context)
  else
    match context.headers.findName HttpHeader.contentLength with
    | none => (serverResult .parsed, { context with expectedBodyLength := 0 })
    | some header =>
      match Str.lexicalCast header.2 with
      | some length => (serverResult .parsed, { context with expectedBodyLength := length })
      | none =>
        (serverError (octets "Invalid Content-Length value: " ++ header.2), context)

/-- The head once its sentinel is in the buffer. `splitString` cannot
throw here, as the sentinel lies in the buffer. -/
def parseHead (posSentinel : Nat) (context : Context) : ServerResult × Context :=
  match Str.splitString context.buffer HttpHeader.crlf 0 (some posSentinel) with
  | none | some [] => (serverError (octets "Missing required HTTP headers"), context)
  | some lines =>
    match parseLines lines context with
    | ((.parsed, _), context) =>
      match parseFraming context with
      | ((.parsed, _), context) =>
        let bodyBeginPos := posSentinel + HttpHeader.sentinel.length
        (serverResult .parsed,
          { context with
            headersParsed := true
            bodyBeginPos := bodyBeginPos
            maxRequestLength := (bodyBeginPos + context.expectedBodyLength) % 2 ^ 64 })
      | failed => failed
    | failed => failed

/-- The body once the head has been parsed. -/
def parseBody (context : Context) : ServerResult × Context :=
  if context.expectedBodyLength > maxContentSize then
    (serverError (octets "Content-Length header value " ++
      Core.Uri.toDecimal context.expectedBodyLength ++
      octets " is larger than the maximum buffer size " ++
      Core.Uri.toDecimal maxContentSize), context)
  else if context.buffer.length = context.maxRequestLength then
    let body :=
      if context.expectedBodyLength > 0 then
        (context.buffer.drop context.bodyBeginPos).take context.expectedBodyLength
      else context.body
    (serverResult .parsed, { context with body := body, parsed := true })
  else if context.buffer.length < context.maxRequestLength then
    (serverResult .moreDataRequired, context)
  else
    (serverError (octets ("The HTTP body size is larger than the expected size provided in " ++
      "the Content-Length header: ") ++ Core.Uri.toDecimal context.expectedBodyLength), context)

/-- The buffer with the new octets in it, the head first unless it has
been parsed before. -/
def parseBuffer (context : Context) : ServerResult × Context :=
  if context.headersParsed then parseBody context
  else
    let posSentinel := findText HttpHeader.sentinel context.buffer
    if posSentinel.getD context.buffer.length > maxHeadersSize then
      (serverError (octets "HTTP header size too large"), context)
    else
      match posSentinel with
      | none =>
        if !context.buffer.isEmpty && !isValidName (context.buffer.take 1) then
          (serverError (octets "Non HTTP request"), context)
        else (serverResult .moreDataRequired, context)
      | some posSentinel =>
        match parseHead posSentinel context with
        | ((.parsed, _), context) => parseBody context
        | failed => failed

/-- `parse`. -/
def parse (chunk : Octets) (context : Context) : Outcome × Context :=
  if context.parsed then
    (.answered (serverError
      (octets "Unexpected input data: the HTTP request has been parsed already")), context)
  else if chunk = [] then
    (.thrown (octets
      "Unexpected input data: the HTTP parser called with an invalid data buffer"), context)
  else if context.buffer.length + chunk.length > maxContentSize + maxHeadersSize then
    (.answered (serverError (octets "HTTP " ++
      (if context.headersParsed then octets "content" else octets "request") ++
      octets " size too large")), context)
  else
    let answer := parseBuffer { context with buffer := context.buffer ++ chunk }
    (.answered answer.1, answer.2)

/-- The answers to the chunks of a connection, and the context after
them. -/
def feed : List Octets → Context → List Outcome × Context
  | [], context => ([], context)
  | chunk :: chunks, context =>
    let answer := parse chunk context
    let rest := feed chunks answer.2
    (answer.1 :: rest.1, rest.2)

end Parser

end Baselib.HttpServer
