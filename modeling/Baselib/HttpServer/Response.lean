/-
Baselib.HttpServer.Response — `httpserver/Response.h` and the status
lines of `http/Globals.h`.

The response is built when it is constructed, from the status, the
content, the content type and the custom headers of the caller. The
order in which an unordered map is iterated is a parameter, `iterate`:
the custom headers are checked and the header lines written in it.
-/
import Baselib.HttpServer.ParserHelpers

namespace Baselib.HttpServer

open Lib
open Baselib.Core (Str.iequals)

/-- `Parameters::HttpStatusCode`, whose values can be any `unsigned int`. -/
abbrev HttpStatusCode := UInt32

/-! ## `http::StatusStrings` -/

namespace StatusStrings

/-- The status lines with a canonical reason phrase. -/
def lines : List (HttpStatusCode × String) :=
  [(0, "HTTP/1.0 0 Status Undefined\r\n"),
    (200, "HTTP/1.0 200 OK\r\n"),
    (201, "HTTP/1.0 201 Created\r\n"),
    (202, "HTTP/1.0 202 Accepted\r\n"),
    (204, "HTTP/1.0 204 No Content\r\n"),
    (300, "HTTP/1.0 300 Multiple Choices\r\n"),
    (301, "HTTP/1.0 301 Moved Permanently\r\n"),
    (302, "HTTP/1.0 302 Moved Temporarily\r\n"),
    (304, "HTTP/1.0 304 Not Modified\r\n"),
    (399, "HTTP/1.0 399 End Range\r\n"),
    (400, "HTTP/1.0 400 Bad Request\r\n"),
    (401, "HTTP/1.0 401 Unauthorized\r\n"),
    (403, "HTTP/1.0 403 Forbidden\r\n"),
    (404, "HTTP/1.0 404 Not Found\r\n"),
    (409, "HTTP/1.0 409 Conflict\r\n"),
    (429, "HTTP/1.0 429 Too Many Requests\r\n"),
    (500, "HTTP/1.0 500 Internal Server Error\r\n"),
    (501, "HTTP/1.0 501 Not Implemented\r\n"),
    (502, "HTTP/1.0 502 Bad Gateway\r\n"),
    (503, "HTTP/1.0 503 Service Unavailable\r\n"),
    (504, "HTTP/1.0 504 Gateway Timeout\r\n")]

/-- `genericReasonPhrase`. -/
def genericReasonPhrase (status : HttpStatusCode) : String :=
  match status.toNat / 100 with
  | 1 => "Informational"
  | 2 => "Success"
  | 3 => "Redirection"
  | 4 => "Client Error"
  | 5 => "Server Error"
  | _ => "Unknown Status"

/-- `getStatusLine`, which ends with a CRLF. -/
def getStatusLine (status : HttpStatusCode) : Octets :=
  match lines.lookup status with
  | some line => octets line
  | none =>
    octets "HTTP/1.0 " ++ Core.Uri.toDecimal status.toNat ++ octets " " ++
      octets (genericReasonPhrase status) ++ octets "\r\n"

end StatusStrings

/-! ## `class ResponseT` -/

structure Response where
  status : HttpStatusCode
  content : Octets
  headers : HeadersMap
  serialized : Octets
  deriving DecidableEq

namespace Response

open ParserHelpers

/-- `getRequiredHeaders`. -/
def getRequiredHeaders (content contentType : Octets) : HeadersMap where
  entries :=
    [(HttpHeader.contentType, contentType),
      (HttpHeader.contentLength, Core.Uri.toDecimal content.length),
      (HttpHeader.connection, HttpHeader.close)]
  nodup := by
    simp only [List.map_cons, List.map_nil]
    decide

/-- `chkCustomHeader`. -/
def chkCustomHeader (name value : Octets) : Except Octets Unit :=
  if !isValidName name then
    .error (octets "Invalid custom response header name: '" ++ name ++ octets "'")
  else if !isValidValue value then
    .error (octets "Invalid characters in the value of custom response header '" ++ name ++
      octets "'")
  else if Str.iequals name HttpHeader.contentType || Str.iequals name HttpHeader.contentLength ||
      Str.iequals name HttpHeader.transferEncoding ||
      Str.iequals name HttpHeader.connection then
    .error (octets "Custom response header '" ++ name ++
      octets "' is generated by the server and can't be provided")
  else .ok ()

/-- The loop over the custom headers. -/
def addCustomHeaders : List (Octets × Octets) → HeadersMap → Except Octets HeadersMap
  | [], headers => .ok headers
  | (name, value) :: rest, headers =>
    match chkCustomHeader name value with
    | .error message => .error message
    | .ok () =>
      match headers.emplace name value with
      | some headers => addCustomHeaders rest headers
      | none =>
        .error (octets "Custom header matching an automatically generated header: '" ++
          name ++ [HttpHeader.nameSeparator, HttpHeader.space] ++
          (headers.entries.lookup name).getD [] ++ octets "'")

/-- The line of a header, without its CRLF. -/
def headerLine (header : Octets × Octets) : Octets :=
  header.1 ++ [HttpHeader.nameSeparator, HttpHeader.space] ++ header.2

/-- `buildResponse`. -/
def buildResponse (status : HttpStatusCode) (content : Octets)
    (headers : List (Octets × Octets)) : Octets :=
  StatusStrings.getStatusLine status ++
    headers.flatMap (fun header => headerLine header ++ HttpHeader.crlf) ++
    HttpHeader.crlf ++ content

/-- The constructor with a content; the failure is the text of the
exception. -/
def create (iterate : HeadersMap → List (Octets × Octets)) (status : HttpStatusCode)
    (content : Octets) (contentType : Octets := []) (customHeaders : HeadersMap := {}) :
    Except Octets Response :=
  let contentType := if contentType = [] then HttpHeader.contentTypeDefault else contentType
  match addCustomHeaders (iterate customHeaders) (getRequiredHeaders content contentType) with
  | .error message => .error message
  | .ok headers =>
    .ok
      { status := status
        content := content
        headers := headers
        serialized := buildResponse status content (iterate headers) }

/-- `getStockResponse`. -/
def getStockResponse (status : HttpStatusCode) : Octets :=
  octets "\x7b\"statusCode\" : " ++ Core.Uri.toDecimal status.toNat ++ octets "\x7d"

/-- The constructor with a status alone. -/
def createStock (iterate : HeadersMap → List (Octets × Octets)) (status : HttpStatusCode) :
    Response :=
  let content := getStockResponse status
  let headers := getRequiredHeaders content HttpHeader.contentTypeDefault
  { status := status
    content := content
    headers := headers
    serialized := buildResponse status content (iterate headers) }

end Response

end Baselib.HttpServer
