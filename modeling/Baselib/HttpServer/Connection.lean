/-
Baselib.HttpServer.Connection — `HttpServerConnection` of
`httpserver/HttpServer.h`: a task which wraps a receive task, a processing
task of the backend and a send task, one after the other.

A label is a handler of the wrapped task, or one of the two calls of the
queue: it schedules the wrapped task, and `onReady` asks for the
continuation. The queue marks the connection completed when there is none,
and also when asking for it throws. A handler has left the lock of the task
before it calls `notifyReady`, so the timer can come in between.

`shutdownSocket` leaves the socket open: a stream which was shut down
passes `ensureChannelIsOpen`, but what is written to it goes nowhere. The
endpoint ids, the logs, the protocol shutdown of a TLS stream between the
write and the close, and a cancellation of the whole connection are left
out. `trace` records what has happened; the code does not keep it.
-/
import Baselib.HttpServer.Parser
import Baselib.Lib.Transition

namespace Baselib.HttpServer.Connection

open Lib

/-! ## The backend -/

inductive ErrorCode where
  | operationAborted
  | timedOut
  | other (value : Int)
  deriving DecidableEq

/-- `eh::system_error`, or any other exception with its text. -/
inductive Exception where
  | systemError (code : ErrorCode)
  | exception (message : Octets)
  deriving DecidableEq

/-- `ServerBackendProcessing`, with its tasks and its responses. A missing
exception is a null pointer. -/
structure Backend (τ β : Type) where
  getProcessingTask : Request → Except Exception τ
  getResponse : τ → Except Exception β
  getStdErrorResponse : Nat → Option Exception → β

/-- What the stream policy decides: which error codes mean a truncated
stream, and what `ensureChannelIsOpen` throws. -/
structure Config where
  isStreamTruncationError : ErrorCode → Bool
  channelClosed : Exception

def httpClientErrorBadRequest : Nat := 400
def httpServerErrorInternal : Nat := 500
def httpServerErrorGatewayTimeout : Nat := 504

/-- `getProcessingErrorStatusCode`. -/
def getProcessingErrorStatusCode : Exception → Nat
  | .systemError .operationAborted | .systemError .timedOut => httpServerErrorGatewayTimeout
  | _ => httpServerErrorInternal

/-! ## The connection -/

/-- `m_state`, with `m_processingTask`. -/
inductive Phase (τ : Type) where
  | receive
  | process (processingTask : τ)
  | respond
  deriving DecidableEq

/-- `m_wrappedTask`; a continuation of the processing task takes its place
there. -/
inductive Wrapped (τ β : Type) where
  | receive
  | processing (task : τ)
  | send (response : β)
  deriving DecidableEq

/-- Where the wrapped task is: in the queue, running, running with its last
handler done, waiting for the queue, or at its end. -/
inductive Stage where
  | pending
  | running
  | handled (eptr : Option Exception)
  | ready
  | completed
  deriving DecidableEq

/-- What the receive task has ended with. -/
inductive Received where
  | parsed (request : Request)
  | parseError (eptr : Exception)
  | truncated (eptr : Exception)
  | failed (eptr : Exception)
  deriving DecidableEq

inductive Event (β : Type) where
  /-- The receive task has ended, and whether its stream is usable then. -/
  | received (received : Received) (usable : Bool)
  /-- The processing stage has ended. -/
  | processed (eptr : Option Exception)
  | wrote (response : β)
  | closed
  deriving DecidableEq

structure State (τ β : Type) where
  state : Phase τ
  wrappedTask : Wrapped τ β
  stage : Stage
  /-- Of the wrapped task, and whether it was cancelled. -/
  exception : Option Exception
  cancelRequested : Bool
  wasSocketShutdownForcefully : Bool
  /-- The parser, the parsing status, the request and the flag of the receive
  task. -/
  context : Context
  parsingStatus : ServerResult
  request : Option Request
  isStreamTruncationError : Bool
  received : Received
  /-- Which task holds the stream. -/
  receiveStream : Bool
  sendStream : Bool
  isShutdown : Bool
  trace : List (Event β)
  deriving DecidableEq

variable {τ β : Type}

/-- A task which has not received anything has failed. -/
def State.create : State τ β where
  state := .receive
  wrappedTask := .receive
  stage := .pending
  exception := none
  cancelRequested := false
  wasSocketShutdownForcefully := false
  context := {}
  parsingStatus := ParserHelpers.serverResult .moreDataRequired
  request := none
  isStreamTruncationError := false
  received := .failed (.systemError .operationAborted)
  receiveStream := true
  sendStream := false
  isShutdown := false
  trace := []

/-! ## The handlers -/

/-- The end of a handler of the receive task. -/
def endReceive (received : Received) (s : State τ β) : State τ β :=
  { s with
    received := received
    stage := .handled (match received with
      | .parsed _ => none
      | .parseError eptr | .truncated eptr | .failed eptr => some eptr) }

/-- The text of an exception which the parser does not provide. -/
def noErrorDetails : Octets :=
  octets "HTTP request parser returned unexpected parsing error 0 and no error details"

/-- The part of `handleRead` behind the checks. -/
def handleOctets (chunk : Octets) (s : State τ β) : State τ β :=
  match Parser.parse chunk s.context with
  | (.thrown message, context) =>
    endReceive (.parseError (.exception message)) { s with context := context }
  | (.answered (.moreDataRequired, message), context) =>
    { s with context := context, parsingStatus := (.moreDataRequired, message) }
  | (.answered (.parsed, message), context) =>
    let s := { s with context := context, parsingStatus := (.parsed, message) }
    match Parser.buildRequest context with
    | .ok request => endReceive (.parsed request) { s with request := some request }
    | .error message => endReceive (.parseError (.exception message)) s
  | (.answered (.parsingError, message), context) =>
    endReceive (.parseError (.exception (message.getD noErrorDetails)))
      { s with context := context, parsingStatus := (.parsingError, message) }

def handleRead (cfg : Config) (ec : Option ErrorCode) (chunk : Octets) (s : State τ β) :
    State τ β :=
  match ec with
  | some code =>
    if cfg.isStreamTruncationError code then
      endReceive (.truncated (.systemError code)) { s with isStreamTruncationError := true }
    else endReceive (.failed (.systemError code)) s
  | none =>
    if s.cancelRequested then endReceive (.failed (.systemError .operationAborted)) s
    else handleOctets chunk s

def handleWrite (ec : Option ErrorCode) (s : State τ β) : State τ β :=
  { s with
    stage := .handled (match ec with
      | some code => some (.systemError code)
      | none => if s.cancelRequested then some (.systemError .operationAborted) else none) }

/-- `shutdownSocket`. -/
def shutdownSocket (s : State τ β) : State τ β :=
  if s.isShutdown then s else { s with isShutdown := true, trace := s.trace ++ [.closed] }

/-- `requestCancelInternal` of a task which runs and holds the stream. -/
def requestCancelInternal (s : State τ β) : State τ β :=
  if s.cancelRequested then s
  else shutdownSocket { s with cancelRequested := true, wasSocketShutdownForcefully := true }

/-- `onTimer` of the receive and of the send task. -/
def onTimer (s : State τ β) : State τ β :=
  match s.wrappedTask, s.stage with
  | .receive, .running | .receive, .handled _ | .send _, .running | .send _, .handled _ =>
    requestCancelInternal s
  | _, _ => s

/-- `notifyReady`; the receive task leaves its stream alone, the send task
closes it. -/
def notifyReady (eptr : Option Exception) (s : State τ β) : State τ β :=
  let s := match s.wrappedTask with
    | .receive =>
      { s with trace := s.trace ++ [Event.received s.received !s.isShutdown] }
    | .send _ => if s.sendStream then shutdownSocket s else s
    | .processing _ => s
  { s with
    exception :=
      if s.cancelRequested && s.wasSocketShutdownForcefully then
        some (.systemError .operationAborted)
      else eptr
    stage := .ready }

/-- The call of the queue. -/
def schedule (cfg : Config) (s : State τ β) : State τ β :=
  match s.wrappedTask with
  | .receive =>
    if s.receiveStream then { s with stage := .running }
    else { s with stage := .handled (some cfg.channelClosed) }
  | .processing _ => { s with stage := .running }
  | .send response =>
    if s.sendStream then
      { s with
        stage := .running
        trace := if s.isShutdown then s.trace else s.trace ++ [.wrote response] }
    else { s with stage := .handled (some cfg.channelClosed) }

/-! ## The continuation -/

/-- What `continuationTask` of the wrapped task does. -/
inductive Continuation (τ : Type) where
  | none
  | task (task : τ)
  | throws (eptr : Exception)
  deriving DecidableEq

/-- The connection with another wrapped task, which was just created. -/
def wrap (task : Wrapped τ β) (s : State τ β) : State τ β :=
  { s with
    wrappedTask := task
    stage := .pending
    exception := none
    cancelRequested := false
    wasSocketShutdownForcefully := false }

/-- The send task, which takes the stream from the receive task. -/
def respond (response : β) (s : State τ β) : State τ β :=
  wrap (.send response)
    { s with state := .respond, sendStream := s.receiveStream, receiveStream := false }

def scheduleStdErrorResponse (backend : Backend τ β) (eptr : Option Exception)
    (httpStatusCode : Nat) (s : State τ β) : State τ β :=
  respond (backend.getStdErrorResponse httpStatusCode eptr) s

/-- `continuationTask` when the wrapped task has no continuation of its own;
`none` is a null pointer. -/
def continueWrapped (backend : Backend τ β) (s : State τ β) :
    Except Exception (Option (State τ β)) :=
  match s.exception, s.state with
  | some _, .respond => .ok none
  | some eptr, .process _ =>
    .ok (some (scheduleStdErrorResponse backend (some eptr)
      (getProcessingErrorStatusCode eptr) s))
  | some eptr, .receive =>
    if s.isStreamTruncationError then .ok none
    else .ok (some (scheduleStdErrorResponse backend (some eptr) httpClientErrorBadRequest s))
  | none, .receive =>
    match s.parsingStatus, s.request with
    | (.parsed, _), some request => do
        let task ← backend.getProcessingTask request
        return some (wrap (.processing task) { s with state := .process task })
    | (_, message), _ =>
      .ok (some (scheduleStdErrorResponse backend (message.map .exception)
        httpClientErrorBadRequest s))
  | none, .process processingTask => do
      let response ← backend.getResponse processingTask
      return some (respond response s)
  | none, .respond => .ok none

/-- `continuationTask`; a continuation of the wrapped task takes its place
first. -/
def continuationTask (backend : Backend τ β) (continuation : Continuation τ) (s : State τ β) :
    Except Exception (Option (State τ β)) :=
  match continuation with
  | .throws eptr => .error eptr
  | .task task => .ok (some (wrap (.processing task) s))
  | .none => continueWrapped backend s

/-- The end of the processing stage. -/
def recordProcessed (continuation : Continuation τ) (s : State τ β) : State τ β :=
  match s.state, continuation with
  | .process _, .none => { s with trace := s.trace ++ [.processed s.exception] }
  | .process _, .throws eptr => { s with trace := s.trace ++ [.processed (some eptr)] }
  | _, _ => s

/-- `onReady` of the queue. -/
def onReady (backend : Backend τ β) (continuation : Continuation τ) (s : State τ β) :
    State τ β :=
  let s := recordProcessed continuation s
  match continuationTask backend continuation s with
  | .ok (some s) => s
  | .ok none => { s with stage := .completed }
  | .error eptr => { s with exception := some eptr, stage := .completed }

/-! ## Runs -/

inductive Label (τ : Type) where
  | schedule
  | handleRead (ec : Option ErrorCode) (chunk : Octets)
  | processed (eptr : Option Exception)
  | handleWrite (ec : Option ErrorCode)
  | onTimer
  | notifyReady
  | onReady (continuation : Continuation τ)

/-- Neither the receive nor the send task has a continuation. -/
def step (cfg : Config) (backend : Backend τ β) (s : State τ β) : Label τ → Option (State τ β)
  | .schedule => if s.stage = .pending then some (schedule cfg s) else none
  | .handleRead ec chunk =>
    match s.wrappedTask, s.stage with
    | .receive, .running => some (handleRead cfg ec chunk s)
    | _, _ => none
  | .processed eptr =>
    match s.wrappedTask, s.stage with
    | .processing _, .running => some { s with exception := eptr, stage := .ready }
    | _, _ => none
  | .handleWrite ec =>
    match s.wrappedTask, s.stage with
    | .send _, .running => some (handleWrite ec s)
    | _, _ => none
  | .onTimer => some (onTimer s)
  | .notifyReady =>
    match s.stage with
    | .handled eptr => some (notifyReady eptr s)
    | _ => none
  | .onReady continuation =>
    match s.stage, s.wrappedTask, continuation with
    | .ready, .processing _, continuation => some (onReady backend continuation s)
    | .ready, _, .none => some (onReady backend .none s)
    | _, _, _ => none

end Baselib.HttpServer.Connection
