/-
Baselib.Http.SimpleHttpTask — the request which `SimpleHttpTask` of
`http/SimpleHttpTask.h` writes.

The headers of the caller stand in an unordered map: they come in the order
in which the map is iterated.
-/
import Baselib.Core.UriRoundTrip
import Baselib.HttpServer.ParserHelpers

namespace Baselib.Http

open Lib
open Core.Uri (toDecimal)
open HttpServer (HttpHeader.nameSeparator)

/-- The members a request is written from. -/
structure SimpleHttpTask where
  hostName : Octets
  userAgent : Octets
  path : Octets
  action : Octets
  contentIn : Octets
  requestHeaders : List (Octets × Octets)
  deriving DecidableEq

namespace SimpleHttpTask

/-- `initRequest`. -/
def initRequest (task : SimpleHttpTask) : Octets :=
  task.action ++ octets " " ++ task.path ++ octets " HTTP/1.0\r\nHost: " ++ task.hostName ++
    (if task.userAgent = [] then [] else octets "\r\nUser-Agent: " ++ task.userAgent) ++
    octets "\r\nAccept: */*\r\nConnection: close" ++
    task.requestHeaders.flatMap (fun header =>
      octets "\r\n" ++ header.1 ++ [HttpHeader.nameSeparator] ++ header.2) ++
    (if task.contentIn = [] then []
      else octets "\r\nContent-Length: " ++ toDecimal task.contentIn.length) ++
    octets "\r\n\r\n" ++ task.contentIn

end SimpleHttpTask

end Baselib.Http
