/-
Baselib.Tasks.TcpAcceptor — the acceptor task of `tasks/TcpBaseTasks.h`,
`TcpConnectionEstablisherBase` and `TcpConnectionEstablisherAcceptor` over
`TaskBaseT`.

A label is a section under the task lock, or what the operating system does
with an outstanding operation: it completes, and its handler is queued until
it runs. The handler of a completed operation gives a notification when it
leaves, which runs in a section of its own. What a derived class does with an
accepted connection and when the accepting has stopped belongs to `Hooks`;
`α` are the answers its calls depend on. Once it goes on with the shutdown
itself, the derived class may notify as well.

The task is executed once. What cannot be allocated, and the texts of errors,
are left out.
-/
import Baselib.Tasks.ExecutionQueue

namespace Baselib.Tasks.TcpAcceptor

open ExecutionQueue (TaskState)

inductive ErrorCode where
  | operationAborted
  | other (value : Nat)
  deriving DecidableEq

inductive Operation where
  | resolve
  | accept
  | backOff
  deriving DecidableEq

/-- `result` is `none` until the operation completes. -/
structure Outstanding where
  operation : Operation
  result : Option (Option ErrorCode)
  deriving DecidableEq

/-- What the derived class does; `δ` is its state and `ι` a connection. -/
structure Hooks (δ ι α : Type) where
  processIncomingConnection : α → ι → δ → δ
  continueAfterStoppedAccepting : δ → Bool × δ
  onTaskStoppedNothrow : Option ErrorCode → δ → δ

/-- `acceptsStarted` and `backOffsStarted` count the asynchronous operations
the task has started, `ready` are the ready callbacks with what they report.
A connection stands in `accepted` from the moment the system has accepted it,
and in `closed` when the task has closed its socket. -/
structure State (δ ι : Type) where
  state : TaskState
  cancelRequested : Bool
  /-- `m_acceptor`, and whether it is open. -/
  acceptor : Option Bool
  /-- The connection of `m_socket`. -/
  socket : Option ι
  errorCode : Option ErrorCode
  outstanding : List Outstanding
  notifications : List (Option ErrorCode)
  ready : List (Option ErrorCode)
  /-- The derived class goes on with the shutdown. -/
  stoppedAccepting : Bool
  acceptsStarted : Nat
  backOffsStarted : Nat
  accepted : List ι
  closed : List ι
  derived : δ

variable {δ ι α : Type}

def State.create (derived : δ) : State δ ι where
  state := .created
  cancelRequested := false
  acceptor := none
  socket := none
  errorCode := none
  outstanding := []
  notifications := []
  ready := []
  stoppedAccepting := false
  acceptsStarted := 0
  backOffsStarted := 0
  accepted := []
  closed := []
  derived := derived

/-! ## Members of the task -/

def State.notify (eptr : Option ErrorCode) (s : State δ ι) : State δ ι :=
  { s with notifications := s.notifications ++ [eptr] }

def State.start (operation : Operation) (s : State δ ι) : State δ ι :=
  { s with outstanding := s.outstanding ++ [⟨operation, none⟩] }

def State.closeSocket (s : State δ ι) : State δ ι :=
  { s with socket := none, closed := s.closed ++ s.socket.toList }

/-- `createSocket` resets the socket. -/
def startAccept (s : State δ ι) : State δ ι :=
  { s.closeSocket.start .accept with acceptsStarted := s.acceptsStarted + 1 }

def scheduleAcceptAfterBackOff (s : State δ ι) : State δ ι :=
  { s.start .backOff with backOffsStarted := s.backOffsStarted + 1 }

/-- An operation which has not completed is aborted. -/
def Outstanding.abort (o : Outstanding) : Outstanding :=
  { o with result := o.result.or (some (some .operationAborted)) }

/-- `cancelTask` of the acceptor, the establisher and the stream. -/
def cancelTask (s : State δ ι) : State δ ι :=
  { s.closeSocket with
    outstanding := s.outstanding.map fun o =>
      if o.operation = .accept ∧ s.acceptor ≠ some true then o else o.abort }

def requestCancel (s : State δ ι) : State δ ι :=
  if s.cancelRequested then s
  else
    let s := { s with cancelRequested := true }
    if s.state = .running then cancelTask s else s

/-- The notification which a failure to schedule posts does not wait for
anything either. -/
def scheduleNothrow (s : State δ ι) : State δ ι :=
  let s := { s with state := .running }
  if s.cancelRequested then s.notify (some .operationAborted) else s.start .resolve

def onTaskStoppedNothrow (hooks : Hooks δ ι α) (eptr : Option ErrorCode) (s : State δ ι) :
    State δ ι :=
  { s.closeSocket with
    derived := hooks.onTaskStoppedNothrow eptr s.derived
    acceptor := none
    outstanding := s.outstanding.map fun o => if o.operation = .resolve then o else o.abort }

/-- `notifyReadyImpl`; no finish continuation is scheduled. -/
def notifyReady (hooks : Hooks δ ι α) (eptr : Option ErrorCode) (s : State δ ι) : State δ ι :=
  let s := onTaskStoppedNothrow hooks eptr s
  if s.state = .running then { s with state := .pendingCompletion, ready := s.ready ++ [eptr] }
  else s

/-! ## The handlers -/

/-- `listen` is what opening the acceptor throws. -/
def onResolved (listen : Option ErrorCode) (ec : Option ErrorCode) (s : State δ ι) : State δ ι :=
  if ec.isSome then s.notify ec
  else if s.cancelRequested then s.notify (some .operationAborted)
  else if listen.isSome then { s with acceptor := some true }.notify listen
  else startAccept { s with acceptor := some true }

def onAcceptBackOffExpired (ec : Option ErrorCode) (s : State δ ι) : State δ ι :=
  if ec.isSome then s.notify ec
  else if s.cancelRequested then s.notify (some .operationAborted)
  else startAccept s

def onConnectionAccepted (hooks : Hooks δ ι α) (answers : α) (ec : Option ErrorCode)
    (s : State δ ι) : State δ ι :=
  let isAcceptorClosed := s.acceptor != some true
  let isAborted := ec == some .operationAborted
  let s := if ec.isSome && !isAborted then { s with errorCode := ec } else s
  if !s.cancelRequested && !isAborted && !isAcceptorClosed && ec.isSome then
    scheduleAcceptAfterBackOff { s with errorCode := none }
  else if s.cancelRequested || isAborted || isAcceptorClosed then
    let stopped := hooks.continueAfterStoppedAccepting s.derived
    let s := { s with derived := stopped.2 }
    if stopped.1 then { s with acceptor := none, stoppedAccepting := true }
    else s.notify s.errorCode
  else
    match s.socket with
    | some connection =>
      startAccept { s with
        socket := none
        derived := hooks.processIncomingConnection answers connection s.derived }
    | none => startAccept s

/-! ## Runs -/

inductive Label (δ ι α : Type) where
  | scheduleNothrow
  | requestCancel
  | resolved (i : Nat) (ec : Option ErrorCode)
  | accepted (i : Nat) (connection : ι)
  | acceptFails (i : Nat) (ec : ErrorCode)
  | expires (i : Nat)
  | onResolved (i : Nat) (listen : Option ErrorCode)
  | onConnectionAccepted (i : Nat) (answers : α)
  | onAcceptBackOffExpired (i : Nat)
  | notifyReady (i : Nat)
  /-- A section of the derived class; it may leave with a notification. -/
  | derived (derived : δ) (notification : Option (Option ErrorCode))

/-- The operation completes. -/
def State.complete (i : Nat) (operation : Operation) (ec : Option ErrorCode) (s : State δ ι) :
    Option (State δ ι) :=
  if s.outstanding[i]? = some ⟨operation, none⟩ then
    some { s with outstanding := s.outstanding.set i ⟨operation, some ec⟩ }
  else none

/-- The error code the handler of the operation is called with, and the
state without the operation. -/
def State.take (i : Nat) (operation : Operation) (s : State δ ι) :
    Option (Option ErrorCode × State δ ι) :=
  match s.outstanding[i]? with
  | some ⟨o, some ec⟩ =>
    if o = operation then some (ec, { s with outstanding := s.outstanding.eraseIdx i }) else none
  | _ => none

def step (hooks : Hooks δ ι α) (s : State δ ι) : Label δ ι α → Option (State δ ι)
  | .scheduleNothrow => if s.state = .created then some (scheduleNothrow s) else none
  | .requestCancel => some (requestCancel s)
  | .resolved i ec => s.complete i .resolve ec
  | .accepted i connection =>
    (s.complete i .accept none).map fun s =>
      { s with socket := some connection, accepted := s.accepted ++ [connection] }
  | .acceptFails i ec => s.complete i .accept (some ec)
  | .expires i => s.complete i .backOff none
  | .onResolved i listen => (s.take i .resolve).map fun r => onResolved listen r.1 r.2
  | .onConnectionAccepted i answers =>
    (s.take i .accept).map fun r => onConnectionAccepted hooks answers r.1 r.2
  | .onAcceptBackOffExpired i =>
    (s.take i .backOff).map fun r => onAcceptBackOffExpired r.1 r.2
  | .notifyReady i =>
    s.notifications[i]?.map fun eptr =>
      notifyReady hooks eptr { s with notifications := s.notifications.eraseIdx i }
  | .derived derived notification =>
    if notification.isSome && !s.stoppedAccepting then none
    else some { s with
      derived := derived, notifications := s.notifications ++ notification.toList }

end Baselib.Tasks.TcpAcceptor
