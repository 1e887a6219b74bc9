/-
Baselib.Tasks.TcpSslSocket — the runs of a TLS stream task,
`TcpSslSocketAsyncBase` of `tasks/TcpSslBaseTasks.h` over `TaskBaseT`, with
the stream of `tasks/AsioSslStreamWrapper.h` it holds.

A label is a section under the task lock, or the deadline passing. A handler
gives its notification in a section of its own. Between the protocol
operations a derived class has one operation in flight at a time; it may make
the stream itself, and may start over when the handshake has failed, as the
connector does. A stream is attached, detached and marked to be closed while
the task does not run, and its channel is open as long as it is there.

A handler of the deadline which the deadline has put in the queue is no longer
cancelled with the timer. What a run has done is kept in its `log`. The pending
waits which the timer aborts, the names of peers and the logging are left out.
-/
import Baselib.Tasks.ExecutionQueue

namespace Baselib.Tasks.TcpSslSocket

open Lib
open ExecutionQueue (TaskState)

variable {ε : Type}

/-! ## Error codes -/

/-- `connection` are the conditions which `isExpectedSocketException` lists. -/
inductive ErrorCode where
  | operationAborted
  | eof
  | streamTruncated
  | connection (value : Nat)
  | other (value : Nat)
  deriving DecidableEq

def isExpectedSslErrorCode (ec : ErrorCode) : Bool := ec = .streamTruncated

def isExpectedSocketException (isCancelExpected : Bool) : ErrorCode → Bool
  | .operationAborted => isCancelExpected
  | .eof => true
  | .connection _ => true
  | .streamTruncated => false
  | .other _ => false

/-- `isExpectedException` is the answer of the derived class for a task which
is cancelled, or is not. -/
structure Config (ε : Type) where
  systemException : ErrorCode → ε
  unexpectedException : String → ε
  /-- The first exception with the second nested in it. -/
  errinfoNestedExceptionPtr : ε → ε → ε
  isExpectedException : Bool → ErrorCode → Bool
  /-- The protocol timeout is neither special nor zero. -/
  hasProtocolTimeout : Bool

/-! ## The state -/

/-- `shutdowns` counts the calls of `async_shutdown`. -/
structure Stream where
  hasHandshakeCompletedSuccessfully : Bool
  wasShutdownInvoked : Bool
  shutdowns : Nat
  deriving DecidableEq

/-- A stream no operation is in flight on. -/
def Stream.Settled (stream : Stream) : Prop :=
  stream.shutdowns = stream.wasShutdownInvoked.toNat ∧
    (stream.wasShutdownInvoked = true → stream.hasHandshakeCompletedSuccessfully = true)

instance (stream : Stream) : Decidable stream.Settled := inferInstanceAs (Decidable (_ ∧ _))

def Stream.connected : Stream where
  hasHandshakeCompletedSuccessfully := false
  wasShutdownInvoked := false
  shutdowns := 0

inductive Operation where
  | handshake
  | shutdown
  | derived
  deriving DecidableEq

/-- The arguments of `notifyReadyImpl`. -/
structure Notification (ε : Type) where
  allowFinishContinuations : Bool
  eptr : Option ε
  deriving DecidableEq

/-- What one run has done: `closed` are the streams it closed while none of its
operations had been cancelled. -/
structure Log where
  shutdowns : Nat
  operationsCanceled : Bool
  scheduledForShutdown : Bool
  handshakeCompleted : Bool
  closed : List Stream
  deriving DecidableEq

def Log.empty : Log where
  shutdowns := 0
  operationsCanceled := false
  scheduledForShutdown := false
  handshakeCompleted := false
  closed := []

structure State (ε : Type) where
  state : TaskState
  exception : Option ε
  notifyCalled : Bool
  cancelRequested : Bool
  sslStream : Option Stream
  isCloseStreamOnTaskFinish : Bool
  wasSocketShutdownForcefully : Bool
  originalException : Option ε
  scheduledForShutdown : Bool
  isHandshakeCompleted : Bool
  operation : Option Operation
  notification : Option (Notification ε)
  /-- `m_protocolTimer` is waited for. -/
  protocolTimer : Bool
  /-- The handlers of the deadline this run has in the queue. -/
  timerHandlers : Nat
  /-- Those which earlier runs have left there. -/
  staleTimerHandlers : Nat
  log : Log
  deriving DecidableEq

def State.create : State ε where
  state := .created
  exception := none
  notifyCalled := false
  cancelRequested := false
  sslStream := none
  isCloseStreamOnTaskFinish := false
  wasSocketShutdownForcefully := false
  originalException := none
  scheduledForShutdown := false
  isHandshakeCompleted := false
  operation := none
  notification := none
  protocolTimer := false
  timerHandlers := 0
  staleTimerHandlers := 0
  log := .empty

/-! ## Members of the task -/

def scheduleProtocolTimer (cfg : Config ε) (s : State ε) : State ε :=
  if cfg.hasProtocolTimeout then { s with protocolTimer := true } else s

def resetStreamState (s : State ε) : State ε :=
  { s with
    sslStream := none
    originalException := none
    scheduledForShutdown := false
    log := { s.log with scheduledForShutdown := false } }

def State.hasHandshakeCompletedSuccessfully (s : State ε) : Bool :=
  s.sslStream.any Stream.hasHandshakeCompletedSuccessfully

def State.wasShutdownInvoked (s : State ε) : Bool :=
  s.sslStream.any Stream.wasShutdownInvoked

def State.isShutdownNeeded (s : State ε) : Bool :=
  !s.wasSocketShutdownForcefully &&
    (s.hasHandshakeCompletedSuccessfully && !s.wasShutdownInvoked)

/-- The stream closes, by the task. -/
def State.closeStream (s : State ε) : State ε :=
  { s with log := { s.log with
      closed := s.log.closed ++ if s.log.operationsCanceled then [] else s.sslStream.toList } }

def createSocket (s : State ε) : State ε :=
  { s.closeStream with sslStream := some .connected }

/-- The stream forgets its last handshake and shutdown. -/
def beginProtocolHandshake (s : State ε) : State ε :=
  { s with
    sslStream := s.sslStream.map fun stream =>
      { stream with hasHandshakeCompletedSuccessfully := false, wasShutdownInvoked := false }
    operation := some .handshake }

def beginProtocolShutdown (eptrIn : Option ε) (s : State ε) : State ε :=
  { s with
    sslStream := s.sslStream.map fun stream =>
      { stream with shutdowns := stream.shutdowns + 1 }
    operation := some .shutdown
    originalException := eptrIn.or s.exception
    scheduledForShutdown := true
    log := { s.log with shutdowns := s.log.shutdowns + 1, scheduledForShutdown := true } }

def cancelTask (s : State ε) : State ε :=
  if s.sslStream.isSome then
    { s with
      wasSocketShutdownForcefully := true
      log := { s.log with operationsCanceled := true } }
  else s

/-- `requestCancelInternal` of `TaskBaseT`. -/
def requestCancelInternal (s : State ε) : State ε :=
  if s.cancelRequested then s
  else if s.state = .running then cancelTask { s with cancelRequested := true }
  else { s with cancelRequested := true }

def onProtocolTimer (s : State ε) : State ε :=
  if s.state = .running then requestCancelInternal s else s

/-- What it throws stands beside the state. -/
def scheduleProtocolOperations (cfg : Config ε) (s : State ε) : State ε × Option ε :=
  if !s.hasHandshakeCompletedSuccessfully then
    (beginProtocolHandshake (scheduleProtocolTimer cfg s), none)
  else if s.isShutdownNeeded && !s.wasShutdownInvoked then
    (beginProtocolShutdown none (scheduleProtocolTimer cfg s), none)
  else
    (s, some (cfg.unexpectedException
      "TcpSslSocketAsyncBase task can only be scheduled directly to do handshake or shutdown"))

def isExpectedException (cfg : Config ε) (ec : ErrorCode) (s : State ε) : Bool :=
  isExpectedSslErrorCode ec ||
    (!s.isHandshakeCompleted && isExpectedSocketException true ec) ||
    cfg.isExpectedException s.cancelRequested ec

/-- A handler leaves, and notifies. -/
def State.notify (eptr : Option ε) (s : State ε) : State ε :=
  { s with operation := none, notification := some ⟨true, eptr⟩ }

inductive ContinueCallback (ε : Type) where
  | continues
  | finishes
  | throws (eptr : ε)

def onHandshakeCompleted (cfg : Config ε) (continueCallback : ContinueCallback ε) (s : State ε) :
    Option ErrorCode → State ε
  | some ec => s.notify (some (cfg.systemException ec))
  | none =>
    if s.cancelRequested then s.notify (some (cfg.systemException .operationAborted))
    else
      let s := { s with
        isHandshakeCompleted := true
        log := { s.log with handshakeCompleted := true } }
      match continueCallback with
      | .continues => { s with operation := some .derived }
      | .finishes => s.notify none
      | .throws eptr => s.notify (some eptr)

def onShutdownCompleted (cfg : Config ε) (s : State ε) : Option ErrorCode → State ε
  | none => s.notify none
  | some ec =>
    if ec ≠ .eof ∧ isExpectedException cfg ec s = false ∧ s.originalException = none then
      s.notify (some (cfg.systemException ec))
    else s.notify none

/-- `onHandshakeInternal` and `onShutdownInternal` of the stream. -/
def onHandshakeInternal (ec : Option ErrorCode) (stream : Stream) : Stream :=
  { stream with hasHandshakeCompletedSuccessfully := ec.isNone }

def onShutdownInternal (stream : Stream) : Stream :=
  { stream with wasShutdownInvoked := true }

/-- The state in which the task is not to complete yet, or the exception it
goes on with. -/
def scheduleTaskFinishContinuation (cfg : Config ε) (eptrIn : Option ε) (s : State ε) :
    State ε ⊕ Option ε :=
  if s.wasSocketShutdownForcefully || s.scheduledForShutdown || !s.isCloseStreamOnTaskFinish ||
      !s.isShutdownNeeded then
    if s.scheduledForShutdown then .inr s.originalException else .inr none
  else .inl (beginProtocolShutdown eptrIn (scheduleProtocolTimer cfg s))

def onTaskStoppedNothrow (cfg : Config ε) (eptr : Option ε) (s : State ε) : State ε × Option ε :=
  let stopped := { s with protocolTimer := false }
  let stopped := if s.isCloseStreamOnTaskFinish then stopped.closeStream else stopped
  if s.cancelRequested && s.wasSocketShutdownForcefully then
    let aborted := cfg.systemException .operationAborted
    (stopped, some (match eptr with
      | none => aborted
      | some eptr => cfg.errinfoNestedExceptionPtr aborted eptr))
  else (stopped, eptr)

/-- The part of `notifyReadyImpl` behind the finish continuation. -/
def complete (cfg : Config ε) (eptr : Option ε) (s : State ε) : State ε :=
  let stopped := onTaskStoppedNothrow cfg eptr s
  if s.notifyCalled then stopped.1
  else { stopped.1 with
    exception := s.exception.or stopped.2
    state := .pendingCompletion
    notifyCalled := true }

/-- An exception which the finish continuation throws takes the place of the
one of the notification. -/
def notifyReadyImpl (cfg : Config ε) (n : Notification ε) (s : State ε) : State ε :=
  if n.allowFinishContinuations then
    match scheduleTaskFinishContinuation cfg n.eptr s with
    | .inl continued => continued
    | .inr (some thrown) => complete cfg (some thrown) { s with exception := some thrown }
    | .inr none => complete cfg n.eptr s
  else complete cfg n.eptr s

/-- What `scheduleTask` of the derived class comes to. -/
inductive ScheduleTask (ε : Type) where
  | protocolOperations
  | derived
  | throws (eptr : ε)

def scheduleTask (cfg : Config ε) (s : State ε) : ScheduleTask ε → State ε × Option ε
  | .protocolOperations => scheduleProtocolOperations cfg s
  | .derived => ({ s with operation := some .derived }, none)
  | .throws eptr => (s, some eptr)

/-- A run begins; what it throws is posted as a notification. -/
def scheduleNothrow (cfg : Config ε) (what : ScheduleTask ε) (s : State ε) : State ε :=
  let s := if s.state = .created then s
    else { s with exception := none, notifyCalled := false, cancelRequested := false }
  let s := { s with
    state := .running
    timerHandlers := 0
    staleTimerHandlers := s.staleTimerHandlers + s.timerHandlers
    log := .empty }
  let scheduled :=
    if s.cancelRequested then (s, some (cfg.systemException .operationAborted))
    else scheduleTask cfg s what
  { scheduled.1 with notification := scheduled.2.map fun eptr => ⟨false, some eptr⟩ }

/-! ## Runs -/

inductive Label (ε : Type) where
  | attachStream (stream : Stream)
  | detachStream
  | isCloseStreamOnTaskFinish (value : Bool)
  | scheduleNothrow (what : ScheduleTask ε)
  | createSocket
  | beginProtocolHandshake
  | onHandshakeCompleted (ec : Option ErrorCode) (continueCallback : ContinueCallback ε)
  | onShutdownCompleted (ec : Option ErrorCode)
  /-- The operation of the derived class ends, and with it the task. -/
  | operationCompleted (eptr : Option ε)
  | notifyReady
  /-- The finish continuation of the connector starts over. -/
  | retry
  | setCompletedState
  | requestCancel
  /-- The deadline passes. -/
  | expire
  | onProtocolTimer
  /-- The handler an earlier run has left. -/
  | onStaleProtocolTimer

/-- A task which runs is not scheduled, and protocol operations need a stream.
A derived class which is cancelled does not begin a handshake, and begins one
only on a stream which has none. -/
def step (cfg : Config ε) (s : State ε) : Label ε → Option (State ε)
  | .attachStream stream =>
    if s.state = .running ∨ ¬stream.Settled then none
    else some { s with sslStream := some stream }
  | .detachStream => if s.state = .running then none else some { s with sslStream := none }
  | .isCloseStreamOnTaskFinish value =>
    if s.state = .running then none else some { s with isCloseStreamOnTaskFinish := value }
  | .scheduleNothrow what =>
    if s.state = .running then none
    else match what with
      | .protocolOperations =>
        if s.sslStream = none then none else some (scheduleNothrow cfg .protocolOperations s)
      | what => some (scheduleNothrow cfg what s)
  | .createSocket => if s.operation = some .derived then some (createSocket s) else none
  | .beginProtocolHandshake =>
    if s.operation = some .derived ∧ s.cancelRequested = false ∧ s.sslStream ≠ none ∧
        s.hasHandshakeCompletedSuccessfully = false then some (beginProtocolHandshake s)
    else none
  | .onHandshakeCompleted ec continueCallback =>
    if s.operation = some .handshake then
      some (onHandshakeCompleted cfg continueCallback
        { s with sslStream := s.sslStream.map (onHandshakeInternal ec) } ec)
    else none
  | .onShutdownCompleted ec =>
    if s.operation = some .shutdown then
      some (onShutdownCompleted cfg { s with sslStream := s.sslStream.map onShutdownInternal } ec)
    else none
  | .operationCompleted eptr =>
    if s.operation = some .derived then some (s.notify eptr) else none
  | .notifyReady => s.notification.map fun n => notifyReadyImpl cfg n { s with notification := none }
  | .retry =>
    match s.notification with
    | some ⟨true, some _⟩ =>
      if s.sslStream = none ∨ s.hasHandshakeCompletedSuccessfully = true then none
      else some { resetStreamState s with operation := some .derived, notification := none }
    | _ => none
  | .setCompletedState =>
    if s.state = .pendingCompletion then some { s with state := .completed } else none
  | .requestCancel => some (requestCancelInternal s)
  | .expire =>
    if s.protocolTimer then
      some { s with protocolTimer := false, timerHandlers := s.timerHandlers + 1 }
    else none
  | .onProtocolTimer =>
    if s.timerHandlers = 0 then none
    else some (onProtocolTimer { s with timerHandlers := s.timerHandlers - 1 })
  | .onStaleProtocolTimer =>
    if s.staleTimerHandlers = 0 then none
    else some (onProtocolTimer { s with staleTimerHandlers := s.staleTimerHandlers - 1 })

end Baselib.Tasks.TcpSslSocket
